import StockScreen.Error
import StockScreen.Json.Record
import StockScreen.Json.Write
import StockScreen.Rule
import StockScreen.Text.Utf8

/-! # Rules in JSON files

A rule is a record of a name and of conditions, which hold a list of prompts
for each timeframe. A list that is not given is empty.
-/

namespace StockScreen

open Json

def promptShape : Shape Prompt where
  label := "struct Prompt"
  fields := [
    .of "left_offset" true text fun s p => { p with leftOffset := s },
    .of "left_indicator" true text fun s p => { p with leftIndicator := s },
    .of "operator" true text fun s p => { p with operator := s },
    .of "right_offset" true text fun s p => { p with rightOffset := s },
    .of "right_indicator" true text fun s p => { p with rightIndicator := s }]
  blank := ⟨"", "", "", "", ""⟩

def conditionsShape : Shape Rule where
  label := "struct RuleConditions"
  fields := [
    .of "hourly" false (listOf promptShape.record) fun ps r => { r with hourly := ps },
    .of "daily" false (listOf promptShape.record) fun ps r => { r with daily := ps },
    .of "weekly" false (listOf promptShape.record) fun ps r => { r with weekly := ps }]
  blank := {}

def savedRuleShape : Shape SavedRule where
  label := "struct SavedRule"
  fields := [
    .of "name" true text fun s r => { r with name := s },
    .of "conditions" false conditionsShape.record fun c r => { r with conditions := c }]
  blank := ⟨"", {}⟩

def fundamentalPromptShape : Shape FundamentalPrompt where
  label := "struct FundamentalPrompt"
  fields := [
    .of "indicator" true text fun s p => { p with indicator := s },
    .of "operator" true text fun s p => { p with operator := s },
    .of "value" true text fun s p => { p with value := s }]
  blank := ⟨"", "", ""⟩

def loadFile {α : Type} (decode : Decoder α) (path : String)
    (content : Except FileFault (List UInt8)) : Except ScreenError α :=
  match readText content with
  | .error fault => .error (.fileAccess fault.message)
  | .ok s =>
    match decodeAll decode s with
    | .error fault => .error (.invalidRule s!"{path}: {fault.message}")
    | .ok x => .ok x

def SavedRule.load (path : String) (content : Except FileFault (List UInt8)) :
    Except ScreenError SavedRule :=
  loadFile savedRuleShape.record path content

def FundamentalPrompt.loadAll (path : String) (content : Except FileFault (List UInt8)) :
    Except ScreenError (List FundamentalPrompt) :=
  loadFile (listOf fundamentalPromptShape.record) path content

def Prompt.lexemes (p : Prompt) : List Lexeme :=
  object [("left_offset", [quotedText p.leftOffset]),
    ("left_indicator", [quotedText p.leftIndicator]), ("operator", [quotedText p.operator]),
    ("right_offset", [quotedText p.rightOffset]),
    ("right_indicator", [quotedText p.rightIndicator])]

def Rule.lexemes (rule : Rule) : List Lexeme :=
  object [("hourly", array (rule.hourly.map Prompt.lexemes)),
    ("daily", array (rule.daily.map Prompt.lexemes)),
    ("weekly", array (rule.weekly.map Prompt.lexemes))]

def SavedRule.lexemes (rule : SavedRule) : List Lexeme :=
  object [("name", [quotedText rule.name]), ("conditions", rule.conditions.lexemes)]

/-- The compact text of a rule, with all its fields in order. -/
def SavedRule.json (rule : SavedRule) : String := compact rule.lexemes

end StockScreen

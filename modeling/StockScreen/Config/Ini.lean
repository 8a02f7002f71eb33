import StockScreen.Decimal.Reader
import StockScreen.Text.Basic
import StockScreen.Text.LowerCase

/-! # Configuration texts

Lines of keys and values in named sections. Names do not depend on letter
case. Of several values under one key the last one counts, and a key without a
delimiter has none.
-/

namespace StockScreen.Config

inductive IniFault
  | unclosedSection (line : Nat)
  | emptyKey (line : Nat)
  deriving DecidableEq, Repr

def IniFault.message : IniFault → String
  | unclosedSection line =>
    s!"line {line}: Found opening bracket for section name but no closing bracket"
  | emptyKey line => s!"line {line}:0: Key cannot be empty"

structure Entry where
  sectionName : String
  key : String
  value : Option String
  deriving DecidableEq, Repr

/-- The entries of a configuration, the last one first. -/
abbrev Ini := List Entry

inductive Line
  | blank
  | opening (name : String)
  | unclosed
  | noKey
  | entry (key : String) (value : Option String)
  deriving DecidableEq, Repr

def startsComment (c : Char) : Bool := c == ';' || c == '#'

def isDelimiter (c : Char) : Bool := c == '=' || c == ':'

/-- A name as it is compared: without blanks around it, in small letters. -/
def foldName (cs : List Char) : String := Text.lowerCase (String.ofList (Text.trimChars cs))

def beforeBracket? (cs : List Char) : Option (List Char) :=
  match cs.reverse.dropWhile (· != ']') with
  | [] => none
  | _ :: before => some before.reverse

def Line.ofContent : List Char → Line
  | [] => .blank
  | '[' :: cs =>
    match beforeBracket? cs with
    | some name => .opening (foldName name)
    | none => .unclosed
  | cs =>
    let key := cs.takeWhile fun c => !isDelimiter c
    match cs.dropWhile fun c => !isDelimiter c with
    | [] => .entry (foldName key) none
    | _ :: value =>
      if foldName key = "" then .noKey
      else .entry (foldName key) (some (String.ofList (Text.trimChars value)))

/-- Comments and the blanks around a line do not count. -/
def Line.read (cs : List Char) : Line :=
  .ofContent (Text.trimChars ((Text.trimChars cs).takeWhile fun c => !startsComment c))

/-- Read lines from number `n` on, in a section, behind earlier entries. -/
def readLines (n : Nat) (sectionName : String) (ini : Ini) :
    List (List Char) → Except IniFault Ini
  | [] => .ok ini
  | cs :: rest =>
    match Line.read cs with
    | .blank => readLines (n + 1) sectionName ini rest
    | .opening name => readLines (n + 1) name ini rest
    | .unclosed => .error (.unclosedSection n)
    | .noKey => .error (.emptyKey n)
    | .entry key value => readLines (n + 1) sectionName (⟨sectionName, key, value⟩ :: ini) rest

def defaultSection : String := "default"

def readIni (s : String) : Except IniFault Ini :=
  readLines 1 defaultSection [] (s.toList.splitOn '\n')

namespace Ini

variable (ini : Ini)

def get? (sectionName key : String) : Option String :=
  let sectionName := Text.lowerCase sectionName
  let key := Text.lowerCase key
  (ini.find? fun e => e.sectionName == sectionName && e.key == key).bind Entry.value

def nonEmpty? (sectionName key : String) : Option String :=
  ((ini.get? sectionName key).map Text.trim).filter (· != "")

/-- An integer of 64 bits; what is missing or does not read as one is the default. -/
def getInt (sectionName key : String) (default : Int) : Int :=
  ((ini.get? sectionName key).bind Decimal.readInt64?).getD default

def getFloat (sectionName key : String) (default : Float) : Float :=
  ((ini.get? sectionName key).bind Decimal.readFloat?).getD default

def readBool? (s : String) : Option Bool :=
  let word := Text.lowerCase (Text.trim s)
  if ["true", "yes", "on", "1"].contains word then some true
  else if ["false", "no", "off", "0"].contains word then some false
  else none

def getBool (sectionName key : String) (default : Bool) : Bool :=
  ((ini.get? sectionName key).bind readBool?).getD default

end Ini

end StockScreen.Config

import StockScreen.Proofs.Json.Reading
import StockScreen.Proofs.Text.Utf8

/-! # Rules are loaded as they were saved

What a rule says is found again in the file that holds its text, whatever its
texts are and wherever there are blanks between the lexemes. The same is true
of lists of prompts about fundamentals.
-/

namespace StockScreen

open Json

def FundamentalPrompt.lexemes (p : FundamentalPrompt) : List Lexeme :=
  object [("indicator", [quotedText p.indicator]), ("operator", [quotedText p.operator]),
    ("value", [quotedText p.value])]

def FundamentalPrompt.allLexemes (ps : List FundamentalPrompt) : List Lexeme :=
  array (ps.map FundamentalPrompt.lexemes)

namespace Json

variable {α ρ : Type} {decode : Decoder α} {ls : List Lexeme} {x : α} {cs bs : List Char}

def Entry.of (name : String) (required : Bool) (put : α → ρ → ρ) (h : Reads decode ls x) :
    Entry ρ where
  field := .of name required decode put
  value := ls
  put := put x
  reads := h.field name required

theorem Reads.loadFile (h : Reads decode ls x) (hcs : Spaced ls cs) (path : String) :
    loadFile decode path (.ok (Utf8.encode cs)) = .ok x := by
  obtain ⟨t, ts, hls, -, hread⟩ := h
  have hall : decodeAll decode (String.ofList cs) = .ok x := by
    have hd := hread []
    rw [List.append_nil] at hd
    rw [decodeAll, String.toList_ofList, hcs.tokens_eq hls, hd]
    rfl
  simp only [StockScreen.loadFile, readText_encode, hall]

end Json

theorem reads_prompt (p : Prompt) : Reads promptShape.record p.lexemes p :=
  reads_record promptShape [
    .of "left_offset" true (fun s p => { p with leftOffset := s }) (reads_text p.leftOffset),
    .of "left_indicator" true (fun s p => { p with leftIndicator := s })
      (reads_text p.leftIndicator),
    .of "operator" true (fun s p => { p with operator := s }) (reads_text p.operator),
    .of "right_offset" true (fun s p => { p with rightOffset := s }) (reads_text p.rightOffset),
    .of "right_indicator" true (fun s p => { p with rightIndicator := s })
      (reads_text p.rightIndicator)] rfl (by decide)

theorem reads_conditions (rule : Rule) : Reads conditionsShape.record rule.lexemes rule := by
  have hprompts : ∀ ps : List Prompt,
      Reads (listOf promptShape.record) (array (ps.map Prompt.lexemes)) ps :=
    fun ps => Reads.listOf fun p _ => reads_prompt p
  exact reads_record conditionsShape [
    .of "hourly" false (fun ps r => { r with hourly := ps }) (hprompts rule.hourly),
    .of "daily" false (fun ps r => { r with daily := ps }) (hprompts rule.daily),
    .of "weekly" false (fun ps r => { r with weekly := ps }) (hprompts rule.weekly)] rfl (by decide)

theorem reads_savedRule (rule : SavedRule) : Reads savedRuleShape.record rule.lexemes rule :=
  reads_record savedRuleShape [
    .of "name" true (fun s r => { r with name := s }) (reads_text rule.name),
    .of "conditions" false (fun c r => { r with conditions := c })
      (reads_conditions rule.conditions)] rfl (by decide)

theorem reads_fundamentalPrompt (p : FundamentalPrompt) :
    Reads fundamentalPromptShape.record p.lexemes p :=
  reads_record fundamentalPromptShape [
    .of "indicator" true (fun s p => { p with indicator := s }) (reads_text p.indicator),
    .of "operator" true (fun s p => { p with operator := s }) (reads_text p.operator),
    .of "value" true (fun s p => { p with value := s }) (reads_text p.value)] rfl (by decide)

/-- Rules and lists of prompts about fundamentals are loaded as they were saved, from their compact
text and from any text with blanks between its lexemes. -/
theorem saved_loads_back (path : String) :
    (∀ rule : SavedRule, SavedRule.load path (.ok (Utf8.encode rule.json.toList)) = .ok rule ∧
      ∀ cs, Spaced rule.lexemes cs → SavedRule.load path (.ok (Utf8.encode cs)) = .ok rule) ∧
    ∀ ps : List FundamentalPrompt,
      FundamentalPrompt.loadAll path
          (.ok (Utf8.encode (compact (FundamentalPrompt.allLexemes ps)).toList)) = .ok ps ∧
        ∀ cs, Spaced (FundamentalPrompt.allLexemes ps) cs →
          FundamentalPrompt.loadAll path (.ok (Utf8.encode cs)) = .ok ps := by
  have hcompact : ∀ ls : List Lexeme, Spaced ls (compact ls).toList := by
    intro ls
    rw [compact, String.toList_ofList]
    exact spaced_flatten ls
  constructor
  · intro rule
    have hload : ∀ cs, Spaced rule.lexemes cs →
        SavedRule.load path (.ok (Utf8.encode cs)) = .ok rule :=
      fun cs hcs => (reads_savedRule rule).loadFile hcs path
    exact ⟨hload _ (hcompact rule.lexemes), hload⟩
  · intro ps
    have hload : ∀ cs, Spaced (FundamentalPrompt.allLexemes ps) cs →
        FundamentalPrompt.loadAll path (.ok (Utf8.encode cs)) = .ok ps :=
      fun cs hcs => (Reads.listOf fun p _ => reads_fundamentalPrompt p).loadFile hcs path
    exact ⟨hload _ (hcompact _), hload⟩

/-- A name with a quote, a backslash, a control character and a letter of two bytes, in a text with
a blank around each lexeme. -/
theorem odd_name_loads_back :
    SavedRule.load "rule.json" (.ok (Utf8.encode (" \x7b \"name\" : \"\\\"\\\\\\u0001é\" , " ++
      "\"conditions\" : \x7b \"hourly\" : [ ] , \"daily\" : [ ] , \"weekly\" : [ ] \x7d \x7d "
        ).toList)) = .ok ⟨"\"\\\x01é", {}⟩ := by
  have hblank : ∀ c ∈ [' '], isBlank c := List.forall_mem_singleton.mpr rfl
  have hspaced := spaced_flatMap hblank (SavedRule.lexemes ⟨"\"\\\x01é", {}⟩)
  have hload := ((saved_loads_back "rule.json").1 ⟨"\"\\\x01é", {}⟩).2 _ hspaced
  rw [← hload]
  exact congrArg (fun cs => SavedRule.load "rule.json" (.ok (Utf8.encode cs))) (by decide +kernel)

end StockScreen

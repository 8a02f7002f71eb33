import StockScreen.Proofs.Lists
import StockScreen.Proofs.Query.RoundTrip
import StockScreen.Proofs.Text.Blank
import StockScreen.Query.Request

/-! # Statements combined in a text

Several statements stand in one text with the word of a set operator between
any two of them. Reading the text gives the statements back, from left to
right, and the operators.
-/

namespace StockScreen.Query

/-! ## Reading several statements -/

def CombineMode.word : CombineMode → String
  | intersect => "INTERSECT"
  | union => "UNION"

def CombineMode.read? (word : String) : Option CombineMode :=
  [intersect, union].find? fun mode => Text.sameLetters mode.word word

/-- A statement and those combined with it, from left to right. -/
structure Compound where
  first : Statement
  more : List (CombineMode × Statement)
  deriving DecidableEq, Repr

def operator? : List Token → Option (CombineMode × List Token)
  | .word w :: ts => (CombineMode.read? w).map (·, ts)
  | _ => none

/-- The further statements, up to the end of the tokens. Each of them stands after an operator. -/
def operands? (ts : List Token) : Option (List (CombineMode × Statement)) :=
  if ts.isEmpty then some []
  else match operator? ts with
    | some (mode, ts') =>
      match statementFrom? ts' with
      | some (s, rest) =>
        -- Fewer tokens are always left; the test is what the recursion ends by.
        if rest.length < ts.length then (operands? rest).map ((mode, s) :: ·) else none
      | none => none
    | none => none
termination_by ts.length

def compound? (ts : List Token) : Option Compound := do
  let (first, rest) ← statementFrom? ts
  let more ← operands? rest
  some ⟨first, more⟩

def Compound.parse? (text : String) : Option Compound := (lex text.toList).bind compound?

/-! ## Reading a combination back -/

variable {s : Select} {more : List Select}

def CombineMode.tokens (mode : CombineMode) (more : List Select) : List Token :=
  more.flatMap fun s => .word mode.word :: s.tokens

theorem CombineMode.breaks_separator (mode : CombineMode) :
    Breaks mode.separator.toList [.word mode.word] := by
  have hword : ∀ {w : String}, Plain w →
      Breaks ('\n' :: (w.toList ++ ['\n'])) [.word w] := fun h =>
    (breaks_space (c := '\n') rfl).append (h.lexes.then rfl (breaks_space rfl))
  cases mode with
  | intersect => exact hword (w := "INTERSECT") (by decide +kernel)
  | union => exact hword (w := "UNION") (by decide +kernel)

/-- A separator continues no token, and neither does what follows the last statement. -/
theorem CombineMode.ends_more (mode : CombineMode) (more : List Select) {rest : List Char}
    (h : Ends rest) : Ends ((more.flatMap fun s => mode.separator.toList ++ s.render) ++ rest) := by
  cases more with
  | nil => exact h
  | cons s more => cases mode <;> exact ends_cons rfl

theorem CombineMode.lexes_tokens (mode : CombineMode) (h : ∀ s ∈ more, s.Plain) :
    Lexes (more.flatMap fun s => mode.separator.toList ++ s.render) (mode.tokens more) := by
  induction more with
  | nil => exact breaks_nil.lexes
  | cons s more ih =>
    obtain ⟨hs, hmore⟩ := List.forall_mem_cons.mp h
    have hfirst := mode.breaks_separator.then (Select.lexes hs)
    exact hfirst.append (ih hmore) fun _ => mode.ends_more more

@[simp] theorem Select.toList_text (s : Select) : s.text.toList = s.render :=
  String.toList_ofList

theorem Select.trim_text_ne (s : Select) : Text.trim s.text ≠ "" := by
  have hmem : 'S' ∈ s.text.toList := by
    rw [s.toList_text]
    exact List.mem_cons_self
  exact Text.trim_ne_empty hmem (by decide)

theorem CombineMode.toList_combine (mode : CombineMode) (s : Select) (more : List Select) :
    (mode.combine ((s :: more).map Select.text)).toList =
      s.render ++ more.flatMap fun s => mode.separator.toList ++ s.render := by
  have hall : ((s :: more).map Select.text).filter (fun s => Text.trim s != "") =
      (s :: more).map Select.text := by
    rw [List.filter_eq_self]
    intro text htext
    obtain ⟨s', -, rfl⟩ := List.mem_map.mp htext
    exact bne_iff_ne.mpr s'.trim_text_ne
  rw [combine, hall, String.toList_intercalate, List.map_map, List.map_cons, intercalate_cons,
    List.flatMap_map]
  simp only [Function.comp_apply, Select.toList_text]

theorem operator?_tokens (mode : CombineMode) (ts : List Token) :
    operator? (.word mode.word :: ts) = some (mode, ts) := by
  have hread : CombineMode.read? mode.word = some mode := by cases mode <;> decide +kernel
  rw [operator?, hread]
  rfl

theorem CombineMode.head?_tokens (mode : CombineMode) (more : List Select) :
    (mode.tokens more).head? ≠ some (.keyword .AND) := by
  cases more <;> simp [tokens]

theorem CombineMode.operands?_tokens (mode : CombineMode) (more : List Select) :
    operands? (mode.tokens more) = some (more.map fun s => (mode, s.statement)) := by
  induction more with
  | nil => rw [operands?]; rfl
  | cons s more ih =>
    have htokens : mode.tokens (s :: more) =
        .word mode.word :: (s.tokens ++ mode.tokens more) := rfl
    rw [htokens, operands?, if_neg (by simp)]
    simp only [operator?_tokens, statementFrom?_tokens s (mode.head?_tokens more)]
    rw [if_pos (by simp only [List.length_cons, List.length_append]; omega), ih]
    rfl

/-- The statements of a request, each of them read back, and its operator between them. -/
def CombineMode.compound (mode : CombineMode) (s : Select) (more : List Select) : Compound :=
  ⟨s.statement, more.map fun s => (mode, s.statement)⟩

/-- The combined text of statements is read to its end as these statements, with the operator
between any two of them. -/
theorem CombineMode.combine_reads_back (mode : CombineMode) (h : ∀ s' ∈ s :: more, s'.Plain) :
    Compound.parse? (mode.combine ((s :: more).map Select.text)) = some (mode.compound s more) := by
  obtain ⟨hs, hmore⟩ := List.forall_mem_cons.mp h
  have hlexes : Lexes (s.render ++ more.flatMap fun s => mode.separator.toList ++ s.render)
      (s.tokens ++ mode.tokens more) :=
    (Select.lexes hs).append (mode.lexes_tokens hmore) fun _ => mode.ends_more more
  rw [Compound.parse?, mode.toList_combine, hlexes.lex_eq, Option.bind_some, compound?,
    statementFrom?_tokens s (mode.head?_tokens more)]
  simp only [Option.bind_eq_bind, Option.bind_some, mode.operands?_tokens]
  rfl

end StockScreen.Query

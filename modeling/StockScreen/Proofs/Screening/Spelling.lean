import StockScreen.Proofs.Screening.Compilation

/-! # Spellings of prompts

Labels and operators are read up to the blanks around them and the case of
ASCII letters, names of indicators up to the blanks around them. A prompt
compiles to the condition that its texts stand for in this way, so prompts that
differ in nothing else compile alike. What is not resolved, the text of a
literal, is kept as it is.
-/

namespace StockScreen

namespace Text

/-- A text without the blanks around it and the case of its ASCII letters. -/
def plain (s : String) : String := asciiLower (trim s)

theorem sameLetters_trim (word s : String) :
    sameLetters word (trim s) = (asciiLower word == plain s) := rfl

theorem trim_sameLetters (s word : String) :
    sameLetters (trim s) word = (plain s == asciiLower word) := rfl

theorem toLower_of_not_isAlpha {c : Char} (h : ¬ c.toLower.isAlpha) : c.toLower = c := by
  unfold Char.toLower at h ⊢
  split
  · next hupper =>
    rw [dif_pos hupper] at h
    have hlower : 'a'.val ≤ c.val + ('a'.val - 'A'.val) ∧
        c.val + ('a'.val - 'A'.val) ≤ 'z'.val := by
      grind [UInt32.toNat_add, UInt32.le_iff_toNat_le]
    refine absurd ?_ h
    exact Bool.or_eq_true_iff.mpr (.inr (Bool.and_eq_true_iff.mpr
      ⟨decide_eq_true hlower.1, decide_eq_true hlower.2⟩))
  · rfl

theorem eq_of_asciiLower_eq {s t : String} (h : asciiLower s = t)
    (ht : t.toList.any Char.isAlpha = false) : s = t := by
  have hchars : s.toList.map Char.toLower = t.toList := by
    rw [← h, asciiLower, String.toList_ofList]
  have hsame : s.toList.map Char.toLower = s.toList := by
    refine (List.map_congr_left fun c hc => ?_).trans (List.map_id _)
    exact toLower_of_not_isAlpha (List.any_eq_false.mp ht _ (hchars ▸ List.mem_map_of_mem hc))
  exact String.toList_inj.mp (hsame ▸ hchars)

end Text

open Text (plain)

/-! ## Words -/

def OffsetLabel.HasWord (tf : Timeframe) (word : String) : OffsetLabel → Prop
  | periods offset => tf.offsetLabels[offset]? = some word
  | other => word = "other"
  | customValue => word = "custom value"

def Comparison.HasWord (word : String) (op : Comparison) : Prop :=
  word = op.symbol ∨ word = op.label

section

variable {s s' label label' name name' : String} {tf : Timeframe}

theorem isOther_iff : isOther label ↔ plain label = "other" := by
  have hword : Text.asciiLower "other" = "other" := by decide +kernel
  rw [isOther, Text.trim_sameLetters, beq_iff_eq, hword]

theorem isCustomValue_iff : isCustomValue label ↔ plain label = "custom value" := by
  have hword : Text.asciiLower "custom value" = "custom value" := by decide +kernel
  rw [isCustomValue, Text.trim_sameLetters, beq_iff_eq, hword]

theorem Prompt.isLiteral_iff {p : Prompt} : p.isLiteral ↔ plain p.rightOffset = "custom value" :=
  isCustomValue_iff

namespace Timeframe

theorem length_offsetLabels (tf : Timeframe) : tf.offsetLabels.length = 6 := by
  cases tf <;> rfl

theorem nodup_offsetLabels (tf : Timeframe) : tf.offsetLabels.Nodup := by
  cases tf <;> decide +kernel

theorem offsetOf?_eq_some_iff {offset : Nat} :
    tf.offsetOf? label = some offset ↔ tf.offsetLabels[offset]? = some (plain label) := by
  have hlower : ∀ word ∈ tf.offsetLabels, Text.asciiLower word = word := by
    cases tf <;> decide +kernel
  have hword : ∀ k (hk : k < tf.offsetLabels.length),
      Text.sameLetters tf.offsetLabels[k] (Text.trim label) ↔ tf.offsetLabels[k] = plain label := by
    intro k hk
    rw [Text.sameLetters_trim, beq_iff_eq, hlower _ (List.getElem_mem hk)]
  rw [offsetOf?, List.findIdx?_eq_some_iff_getElem, List.getElem?_eq_some_iff]
  constructor
  · rintro ⟨hlt, h, -⟩
    exact ⟨hlt, (hword offset hlt).mp h⟩
  · rintro ⟨hlt, h⟩
    refine ⟨hlt, (hword offset hlt).mpr h, fun k hk hsame => ?_⟩
    have hlabels := ((hword k (Nat.lt_trans hk hlt)).mp hsame).trans h.symm
    exact Nat.ne_of_lt hk (tf.nodup_offsetLabels.getElem_inj_iff.mp hlabels)

end Timeframe

theorem OffsetLabel.read?_eq_some_iff {meaning : OffsetLabel} :
    read? tf label = some meaning ↔ meaning.HasWord tf (plain label) := by
  have hother : "other" ∉ tf.offsetLabels := by cases tf <;> decide +kernel
  have hcustom : "custom value" ∉ tf.offsetLabels := by cases tf <;> decide +kernel
  rw [read?]
  split
  · next h =>
    rw [isOther_iff.mp h]
    cases meaning with
    | periods offset => exact iff_of_false nofun fun h => hother (List.mem_of_getElem? h)
    | other => exact iff_of_true rfl rfl
    | customValue => exact iff_of_false nofun (by decide +kernel : "other" ≠ "custom value")
  split
  · next h =>
    rw [isCustomValue_iff.mp h]
    cases meaning with
    | periods offset => exact iff_of_false nofun fun h => hcustom (List.mem_of_getElem? h)
    | other => exact iff_of_false nofun (by decide +kernel : "custom value" ≠ "other")
    | customValue => exact iff_of_true rfl rfl
  · next hnot hnot' =>
    rw [Option.map_eq_some_iff]
    cases meaning with
    | periods offset =>
      simp only [Timeframe.offsetOf?_eq_some_iff, periods.injEq, exists_eq_right, HasWord]
    | other => exact iff_of_false nofun (mt isOther_iff.mpr hnot)
    | customValue => exact iff_of_false nofun (mt isCustomValue_iff.mpr hnot')

theorem OffsetLabel.read?_congr (h : plain label = plain label') :
    read? tf label = read? tf label' :=
  Option.ext fun meaning => by rw [read?_eq_some_iff, read?_eq_some_iff, h]

namespace Comparison

theorem symbol_eq_trim_iff (op : Comparison) :
    op.symbol = Text.trim s ↔ plain s = op.symbol := by
  have hsymbol : Text.asciiLower op.symbol = op.symbol ∧
      op.symbol.toList.any Char.isAlpha = false := by
    cases op <;> decide +kernel
  constructor
  · intro h
    rw [plain, ← h, hsymbol.1]
  · intro h
    exact (Text.eq_of_asciiLower_eq h hsymbol.2).symm

theorem hasWord_iff (op : Comparison) :
    (op.symbol == Text.trim s || Text.sameLetters op.label (Text.trim s)) ↔
      op.HasWord (plain s) := by
  have hlabel : Text.asciiLower op.label = op.label := by cases op <;> decide +kernel
  rw [Bool.or_eq_true, beq_iff_eq, symbol_eq_trim_iff, Text.sameLetters_trim, beq_iff_eq, hlabel,
    HasWord, eq_comm (a := op.label)]

theorem HasWord.eq {word : String} {op op' : Comparison} (h : op.HasWord word)
    (h' : op'.HasWord word) : op = op' := by
  rcases h with rfl | rfl <;> rcases h' with h' | h' <;> revert h' <;> cases op <;> cases op' <;>
    decide +kernel

theorem read?_eq_some_iff {op : Comparison} : read? s = some op ↔ op.HasWord (plain s) := by
  have hfound : ∀ {op}, read? s = some op → op.HasWord (plain s) := by
    intro op h
    simp only [read?] at h
    have hop := List.find?_some h
    exact (hasWord_iff op).mp hop
  refine ⟨hfound, fun h => ?_⟩
  cases hread : read? s with
  | none =>
    have hmem : op ∈ all := by cases op <;> decide
    simp only [read?] at hread
    exact absurd ((hasWord_iff op).mpr h) (List.find?_eq_none.mp hread op hmem)
  | some op' => rw [(hfound hread).eq h]

theorem read?_congr (h : plain s = plain s') : read? s = read? s' :=
  Option.ext fun op => by rw [read?_eq_some_iff, read?_eq_some_iff, h]

end Comparison

theorem Catalog.find?_congr (c : Catalog) (h : Text.trim name = Text.trim name') :
    c.find? name = c.find? name' := by
  rw [find?, find?, h]

end

/-! ## Outcomes that agree -/

/-- The same error, whatever the text that it is about. -/
inductive ScreenError.SameKind : ScreenError → ScreenError → Prop
  | unknownIndicator (scope name name' : String) :
    SameKind (.unknownIndicator scope name) (.unknownIndicator scope name')
  | unknownOffset (tf : Timeframe) (label label' : String) :
    SameKind (.unknownOffset tf label) (.unknownOffset tf label')
  | unsupportedOperator (operator operator' : String) :
    SameKind (.unsupportedOperator operator) (.unsupportedOperator operator')
  | invalidRule (reason reason' : String) : SameKind (.invalidRule reason) (.invalidRule reason')

/-- Two outcomes are the same value, or errors of the same kind. -/
inductive Agree {α : Type} : Except ScreenError α → Except ScreenError α → Prop
  | ok (v : α) : Agree (.ok v) (.ok v)
  | error {e e' : ScreenError} (h : e.SameKind e') : Agree (.error e) (.error e')

theorem Agree.bind {α β : Type} {x y : Except ScreenError α} {f g : α → Except ScreenError β}
    (h : Agree x y) (hf : ∀ v, Agree (f v) (g v)) : Agree (x >>= f) (y >>= g) := by
  cases h with
  | ok v => exact hf v
  | error h => exact .error h

theorem Catalog.lookup_agree (c : Catalog) {name name' : String}
    (h : Text.trim name = Text.trim name') : Agree (c.lookup name) (c.lookup name') := by
  rw [lookup, lookup, c.find?_congr h]
  cases c.find? name' with
  | some entry => exact .ok entry
  | none => exact .error (.unknownIndicator ..)

theorem OperatorPolicy.read_agree (policy : OperatorPolicy) {s s' : String}
    (h : plain s = plain s') : Agree (policy.read s).outcome (policy.read s').outcome := by
  unfold OperatorPolicy.read
  rw [Comparison.read?_congr h]
  cases Comparison.read? s' with
  | some op => exact .ok op
  | none =>
    cases policy with
    | strict => exact .error (.unsupportedOperator ..)
    | fallback => exact .ok Comparison.equal

/-- Prompts whose texts are spelled differently at most. A literal has one spelling. -/
structure Prompt.Alike (p q : Prompt) : Prop where
  leftOffset : plain p.leftOffset = plain q.leftOffset
  leftIndicator : Text.trim p.leftIndicator = Text.trim q.leftIndicator
  operator : plain p.operator = plain q.operator
  rightOffset : plain p.rightOffset = plain q.rightOffset
  literal : plain p.rightOffset = "custom value" → p.rightIndicator = q.rightIndicator
  rightIndicator : plain p.rightOffset ≠ "custom value" →
    Text.trim p.rightIndicator = Text.trim q.rightIndicator

/-- The column is the one that a label and the name of an indicator stand for. -/
structure ColumnRef.NamedBy (catalogs : Catalogs) (tf : Timeframe) (label name : String)
    (col : ColumnRef) : Prop where
  timeframe : col.timeframe = tf
  shifted : ∀ offset kind, col.target = .shifted offset kind →
    offset ≤ 5 ∧ tf.offsetLabels[offset]? = some (plain label) ∧
      ∃ entry, (catalogs.timeframe tf).lookup name = .ok entry ∧
        entry.home = .timeframe kind ∧ entry.column = col.column
  table : ∀ table, col.target = .table table →
    ∃ entry, (plain label ∈ tf.offsetLabels ∧ (catalogs.timeframe tf).lookup name = .ok entry ∨
        plain label = "other" ∧ catalogs.fundamentals.lookup name = .ok entry) ∧
      entry.home = .fundamental table ∧ entry.column = col.column

/-- The comparison is the one that a text stands for under a policy. -/
def OperatorPolicy.Takes (policy : OperatorPolicy) (s : String) (op : Comparison) : Prop :=
  op.HasWord (plain s) ∨
    (∀ op' : Comparison, ¬ op'.HasWord (plain s)) ∧ policy = .fallback ∧ op = .equal

theorem OperatorPolicy.read_eq_ok_iff {policy : OperatorPolicy} {s : String} {op : Comparison} :
    (policy.read s).outcome = .ok op ↔ policy.Takes s op := by
  unfold OperatorPolicy.read
  cases hread : Comparison.read? s with
  | some op' =>
    have hword := Comparison.read?_eq_some_iff.mp hread
    constructor
    · rintro ⟨⟩
      exact .inl hword
    · rintro (h | ⟨hnone, -⟩)
      · rw [hword.eq h]
        rfl
      · exact absurd hword (hnone op')
  | none =>
    have hnone : ∀ op' : Comparison, ¬ op'.HasWord (plain s) := fun op' h => by
      cases hread.symm.trans (Comparison.read?_eq_some_iff.mpr h)
    cases policy with
    | strict => exact iff_of_false nofun fun h => h.elim (hnone op) fun h => nomatch h.2.1
    | fallback =>
      constructor
      · rintro ⟨⟩
        exact .inr ⟨hnone, rfl, rfl⟩
      · rintro (h | ⟨-, -, rfl⟩)
        · exact absurd h (hnone op)
        · rfl

namespace Condition

variable {catalogs : Catalogs} {policy : OperatorPolicy} {tf : Timeframe} {p q : Prompt}
  {c : Condition}

theorem resolveColumn_agree {label label' name name' : String} (hl : plain label = plain label')
    (hn : Text.trim name = Text.trim name') :
    Agree (resolveColumn catalogs tf label name) (resolveColumn catalogs tf label' name') := by
  unfold resolveColumn
  rw [OffsetLabel.read?_congr hl]
  cases OffsetLabel.read? tf label' with
  | none => exact .error (.unknownOffset ..)
  | some meaning =>
    cases meaning with
    | customValue => exact .error (.unknownOffset ..)
    | periods offset =>
      refine ((catalogs.timeframe tf).lookup_agree hn).bind fun entry => ?_
      cases entry.home with
      | timeframe kind => exact .ok _
      | fundamental table => exact .ok _
    | other =>
      refine (catalogs.fundamentals.lookup_agree hn).bind fun entry => ?_
      cases entry.home with
      | timeframe kind => exact .error (.invalidRule ..)
      | fundamental table => exact .ok _

theorem namedBy_of_resolveColumn {label name : String} {col : ColumnRef}
    (h : resolveColumn catalogs tf label name = .ok col) :
    col.NamedBy catalogs tf label name := by
  unfold resolveColumn at h
  cases hread : OffsetLabel.read? tf label with
  | none => rw [hread] at h; cases h
  | some meaning =>
    have hword := OffsetLabel.read?_eq_some_iff.mp hread
    rw [hread] at h
    cases meaning with
    | customValue => cases h
    | periods offset =>
      obtain ⟨entry, hentry, h⟩ := bind_eq_ok_iff.mp h
      cases hhome : entry.home with
      | timeframe kind =>
        rw [hhome] at h
        cases h
        have hle : offset ≤ 5 := by
          have hlt := OffsetLabel.lt_of_read? hread
          rw [Timeframe.length_offsetLabels] at hlt
          exact Nat.le_of_lt_succ hlt
        refine ⟨rfl, ?_, nofun⟩
        rintro _ _ ⟨⟩
        exact ⟨hle, hword, entry, hentry, hhome, rfl⟩
      | fundamental table =>
        rw [hhome] at h
        cases h
        refine ⟨rfl, nofun, ?_⟩
        rintro _ ⟨⟩
        exact ⟨entry, .inl ⟨List.mem_of_getElem? hword, hentry⟩, hhome, rfl⟩
    | other =>
      obtain ⟨entry, hentry, h⟩ := bind_eq_ok_iff.mp h
      cases hhome : entry.home with
      | timeframe kind => rw [hhome] at h; cases h
      | fundamental table =>
        rw [hhome] at h
        cases h
        refine ⟨rfl, nofun, ?_⟩
        rintro _ ⟨⟩
        exact ⟨entry, .inr ⟨hword, hentry⟩, hhome, rfl⟩

theorem resolveColumn_of_namedBy {label name : String} {col : ColumnRef}
    (h : col.NamedBy catalogs tf label name) : resolveColumn catalogs tf label name = .ok col := by
  obtain ⟨htf, hshifted, htable⟩ := h
  rcases col with ⟨tf', target, column⟩
  cases htf
  unfold resolveColumn
  cases target with
  | shifted offset kind =>
    obtain ⟨-, hplace, entry, hentry, hhome, rfl⟩ := hshifted offset kind rfl
    have hread : OffsetLabel.read? tf' label = some (.periods offset) :=
      OffsetLabel.read?_eq_some_iff.mpr hplace
    rw [hread]
    exact bind_eq_ok_iff.mpr ⟨entry, hentry, by rw [hhome]; rfl⟩
  | table name =>
    obtain ⟨entry, ⟨hlabel, hentry⟩ | ⟨hother, hentry⟩, hhome, rfl⟩ := htable name rfl
    · obtain ⟨offset, hplace⟩ := List.mem_iff_getElem?.mp hlabel
      have hread : OffsetLabel.read? tf' label = some (.periods offset) :=
        OffsetLabel.read?_eq_some_iff.mpr hplace
      rw [hread]
      exact bind_eq_ok_iff.mpr ⟨entry, hentry, by rw [hhome]; rfl⟩
    · have hread : OffsetLabel.read? tf' label = some .other :=
        OffsetLabel.read?_eq_some_iff.mpr hother
      rw [hread]
      exact bind_eq_ok_iff.mpr ⟨entry, hentry, by rw [hhome]; rfl⟩

theorem outcome_compile :
    (compile catalogs policy tf p).outcome =
      (resolveColumn catalogs tf p.leftOffset p.leftIndicator >>= fun left =>
        (policy.read p.operator).outcome >>= fun operator =>
          if p.isLiteral then .ok ⟨left, operator, .literal p.rightIndicator⟩
          else resolveColumn catalogs tf p.rightOffset p.rightIndicator >>= fun right =>
            .ok ⟨left, operator, .column right⟩) := by
  simp only [compile, Noted.outcome_bind, Noted.outcome_ofExcept, apply_ite Noted.outcome,
    Noted.outcome_pure]

theorem compile_agree (h : p.Alike q) :
    Agree (compile catalogs policy tf p).outcome (compile catalogs policy tf q).outcome := by
  rw [outcome_compile, outcome_compile]
  refine (resolveColumn_agree h.leftOffset h.leftIndicator).bind fun left => ?_
  refine (policy.read_agree h.operator).bind fun operator => ?_
  by_cases hp : plain p.rightOffset = "custom value"
  · have hq : plain q.rightOffset = "custom value" := h.rightOffset ▸ hp
    rw [if_pos (Prompt.isLiteral_iff.mpr hp), if_pos (Prompt.isLiteral_iff.mpr hq), h.literal hp]
    exact .ok _
  · have hq : plain q.rightOffset ≠ "custom value" := h.rightOffset ▸ hp
    rw [if_neg (Prompt.isLiteral_iff.not.mpr hp), if_neg (Prompt.isLiteral_iff.not.mpr hq)]
    exact (resolveColumn_agree h.rightOffset (h.rightIndicator hp)).bind fun right => .ok _

/-- A condition says what the texts of a prompt stand for. -/
structure Reads (catalogs : Catalogs) (policy : OperatorPolicy) (tf : Timeframe) (p : Prompt)
    (c : Condition) : Prop where
  left : c.left.NamedBy catalogs tf p.leftOffset p.leftIndicator
  operator : policy.Takes p.operator c.operator
  right : ∀ col, c.right = .column col →
    col.NamedBy catalogs tf p.rightOffset p.rightIndicator
  literal : (∃ text, c.right = .literal text) ↔ plain p.rightOffset = "custom value"
  untouched : ∀ text, c.right = .literal text → text = p.rightIndicator

/-- A prompt compiles to the condition that its texts stand for, if there is one. -/
theorem compile_eq_ok_iff :
    (compile catalogs policy tf p).outcome = .ok c ↔ c.Reads catalogs policy tf p := by
  rw [outcome_compile]
  constructor
  · intro h
    obtain ⟨left, hleft, h⟩ := bind_eq_ok_iff.mp h
    obtain ⟨operator, hoperator, h⟩ := bind_eq_ok_iff.mp h
    have hleft := namedBy_of_resolveColumn hleft
    have hoperator := OperatorPolicy.read_eq_ok_iff.mp hoperator
    by_cases hp : plain p.rightOffset = "custom value"
    · rw [if_pos (Prompt.isLiteral_iff.mpr hp)] at h
      cases h
      refine ⟨hleft, hoperator, nofun, ⟨fun _ => hp, fun _ => ⟨_, rfl⟩⟩, ?_⟩
      rintro _ ⟨⟩
      rfl
    · rw [if_neg (Prompt.isLiteral_iff.not.mpr hp)] at h
      obtain ⟨right, hright, h⟩ := bind_eq_ok_iff.mp h
      cases h
      refine ⟨hleft, hoperator, ?_, ⟨nofun, fun hcustom => absurd hcustom hp⟩, nofun⟩
      rintro _ ⟨⟩
      exact namedBy_of_resolveColumn hright
  · rintro ⟨hleft, hoperator, hright, hliteral, huntouched⟩
    rcases c with ⟨left, operator, right⟩
    refine bind_eq_ok_iff.mpr ⟨left, resolveColumn_of_namedBy hleft, ?_⟩
    refine bind_eq_ok_iff.mpr ⟨operator, OperatorPolicy.read_eq_ok_iff.mpr hoperator, ?_⟩
    cases right with
    | literal text =>
      rw [if_pos (Prompt.isLiteral_iff.mpr (hliteral.mp ⟨text, rfl⟩)), huntouched text rfl]
    | column col =>
      have hp : plain p.rightOffset ≠ "custom value" := fun hp => by
        obtain ⟨text, ⟨⟩⟩ := hliteral.mpr hp
      rw [if_neg (Prompt.isLiteral_iff.not.mpr hp)]
      exact bind_eq_ok_iff.mpr ⟨col, resolveColumn_of_namedBy (hright col rfl), rfl⟩

theorem compile_of_left_custom (h : plain p.leftOffset = "custom value") :
    (compile catalogs policy tf p).outcome = .error (.unknownOffset tf p.leftOffset) := by
  have hread : OffsetLabel.read? tf p.leftOffset = some .customValue :=
    OffsetLabel.read?_eq_some_iff.mpr h
  rw [outcome_compile, resolveColumn, hread]
  rfl

/-- Compiling depends on the spelling of a prompt in the text of a literal only. -/
structure ReadsSpellings (catalogs : Catalogs) (policy : OperatorPolicy) (tf : Timeframe) :
    Prop where
  alike : ∀ p q : Prompt, p.Alike q →
    Agree (compile catalogs policy tf p).outcome (compile catalogs policy tf q).outcome
  reads : ∀ p c, (compile catalogs policy tf p).outcome = .ok c ↔ c.Reads catalogs policy tf p
  leftCustom : ∀ p : Prompt, plain p.leftOffset = "custom value" →
    (compile catalogs policy tf p).outcome = .error (.unknownOffset tf p.leftOffset)
  all_ok : ∀ ps cs, (compileAll catalogs policy tf ps).outcome = .ok cs ↔
    ps.map (fun p => (compile catalogs policy tf p).outcome) = cs.map .ok
  all_error : ∀ ps e, (compileAll catalogs policy tf ps).outcome = .error e ↔
    ∃ before p after, ps = before ++ p :: after ∧
      (∀ q ∈ before, ∃ c, (compile catalogs policy tf q).outcome = .ok c) ∧
      (compile catalogs policy tf p).outcome = .error e

theorem compile_reads_spellings (catalogs : Catalogs) (policy : OperatorPolicy)
    (tf : Timeframe) : ReadsSpellings catalogs policy tf where
  alike _ _ := compile_agree
  reads _ _ := compile_eq_ok_iff
  leftCustom _ := compile_of_left_custom
  all_ok ps cs := by rw [outcome_compileAll, mapM_eq_ok_iff]
  all_error ps e := by rw [outcome_compileAll, mapM_eq_error_iff]

end Condition

end StockScreen

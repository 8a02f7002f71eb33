import StockScreen.Proofs.Lists
import StockScreen.Proofs.Planning.Aliases
import StockScreen.Screening.Screener

/-! # What compiling gives

A prompt compiles to columns of the catalogs it is compiled with, in its own
timeframe, or fails with an error that is due to the rule. A rule compiles
timeframe by timeframe, those without prompts left out.
-/

namespace StockScreen

namespace Noted

variable {α β : Type}

/-- The outcome is a value in `Q`, or an error in `E`. -/
structure Ensures (x : Noted α) (Q : α → Prop) (E : ScreenError → Prop) : Prop where
  ok : ∀ v, x.outcome = .ok v → Q v
  error : ∀ e, x.outcome = .error e → E e

variable {x : Noted α} {f : α → Noted β} {Q R : α → Prop} {E : ScreenError → Prop}

@[simp] theorem outcome_ofExcept (r : Except ScreenError α) : (ofExcept r).outcome = r := rfl

theorem Ensures.mono (h : x.Ensures Q E) (hQ : ∀ v, Q v → R v) : x.Ensures R E :=
  ⟨fun v hv => hQ v (h.ok v hv), h.error⟩

theorem ensures_of_ok {v : α} (hx : x.outcome = .ok v) (h : Q v) : x.Ensures Q E where
  ok u hu := by cases hx.symm.trans hu; exact h
  error e he := by cases hx.symm.trans he

theorem ensures_of_error {e : ScreenError} (hx : x.outcome = .error e) (h : E e) :
    x.Ensures Q E where
  ok u hu := by cases hx.symm.trans hu
  error e' he := by cases hx.symm.trans he; exact h

theorem Ensures.bind {Q : β → Prop} (h : x.Ensures (fun v => (f v).Ensures Q E) E) :
    (x >>= f).Ensures Q E := by
  cases ho : x.outcome with
  | ok v =>
    have hf := h.ok v ho
    have hb : (x >>= f).outcome = (f v).outcome := by rw [outcome_bind, ho]; rfl
    exact ⟨fun u hu => hf.ok u (hb ▸ hu), fun e he => hf.error e (hb ▸ he)⟩
  | error e => exact ensures_of_error (by rw [outcome_bind, ho]; rfl) (h.error e ho)

end Noted

/-- A column of a timeframe that its catalog lists, or the catalog of what has no time. -/
def ColumnRef.Listed (catalogs : Catalogs) (tf : Timeframe) (c : ColumnRef) : Prop :=
  c.timeframe = tf ∧
    ∃ entry ∈ (catalogs.timeframe tf).entries ++ catalogs.fundamentals.entries,
      entry.column = c.column ∧
        match c.target with
        | .shifted _ kind => entry.home = .timeframe kind
        | .table name => entry.home = .fundamental name

/-- The offset of a column is one that its timeframe has a label for. -/
def ColumnRef.Labelled (tf : Timeframe) (c : ColumnRef) : Prop :=
  ∀ offset kind, c.target = .shifted offset kind → offset < tf.offsetLabels.length

def ScreenError.AboutPrompt : ScreenError → Prop
  | unknownIndicator .. | unknownOffset .. | unsupportedOperator _ | crossTable ..
  | invalidRule _ => True
  | _ => False

theorem Catalog.ensures_lookup (c : Catalog) (name : String) :
    (Noted.ofExcept (c.lookup name)).Ensures (· ∈ c.entries) ScreenError.AboutPrompt := by
  unfold lookup find?
  cases hf : c.entries.find? (·.name == Text.trim name) with
  | none => exact Noted.ensures_of_error rfl trivial
  | some entry => exact Noted.ensures_of_ok rfl (List.mem_of_find?_eq_some hf)

theorem OffsetLabel.lt_of_read? {tf : Timeframe} {label : String} {offset : Nat}
    (h : read? tf label = some (.periods offset)) : offset < tf.offsetLabels.length := by
  unfold read? at h
  split at h
  · cases h
  · split at h
    · cases h
    · obtain ⟨k, hk, ⟨⟩⟩ := Option.map_eq_some_iff.mp h
      exact (List.findIdx?_eq_some_iff_getElem.mp hk).1

namespace Condition

variable (catalogs : Catalogs) (policy : OperatorPolicy) (tf : Timeframe)

theorem ensures_resolveColumn (label name : String) :
    (Noted.ofExcept (resolveColumn catalogs tf label name)).Ensures
      (fun c => c.Listed catalogs tf ∧ c.Labelled tf) ScreenError.AboutPrompt := by
  unfold resolveColumn
  cases hl : OffsetLabel.read? tf label with
  | none => exact Noted.ensures_of_error rfl trivial
  | some meaning =>
    cases meaning with
    | customValue => exact Noted.ensures_of_error rfl trivial
    | periods offset =>
      have hentry := (catalogs.timeframe tf).ensures_lookup name
      cases hn : (catalogs.timeframe tf).lookup name with
      | error e => exact Noted.ensures_of_error rfl (hentry.error e hn)
      | ok entry =>
        have hmem := List.mem_append_left catalogs.fundamentals.entries (hentry.ok entry hn)
        cases hh : entry.home with
        | timeframe kind =>
          refine Noted.ensures_of_ok (v := ⟨tf, .shifted offset kind, entry.column⟩) ?_
            ⟨⟨rfl, entry, hmem, rfl, hh⟩, ?_⟩
          · simp only [hh, bind, Except.bind]
            rfl
          · rintro _ _ ⟨⟩
            exact OffsetLabel.lt_of_read? hl
        | fundamental table =>
          refine Noted.ensures_of_ok (v := ⟨tf, .table table, entry.column⟩) ?_
            ⟨⟨rfl, entry, hmem, rfl, hh⟩, nofun⟩
          simp only [hh, bind, Except.bind]
          rfl
    | other =>
      have hentry := catalogs.fundamentals.ensures_lookup name
      cases hn : catalogs.fundamentals.lookup name with
      | error e => exact Noted.ensures_of_error rfl (hentry.error e hn)
      | ok entry =>
        have hmem := List.mem_append_right (catalogs.timeframe tf).entries (hentry.ok entry hn)
        cases hh : entry.home with
        | timeframe kind =>
          refine Noted.ensures_of_error
            (e := .invalidRule s!"indicator '{name}' has no fundamentals table") ?_ trivial
          simp only [hh, bind, Except.bind]
          rfl
        | fundamental table =>
          refine Noted.ensures_of_ok (v := ⟨tf, .table table, entry.column⟩) ?_
            ⟨⟨rfl, entry, hmem, rfl, hh⟩, nofun⟩
          simp only [hh, bind, Except.bind]
          rfl

theorem ensures_read (text : String) :
    (policy.read text).Ensures (fun _ => True) ScreenError.AboutPrompt := by
  unfold OperatorPolicy.read
  cases Comparison.read? text with
  | some op => exact Noted.ensures_of_ok rfl trivial
  | none =>
    cases policy with
    | strict => exact Noted.ensures_of_error rfl trivial
    | fallback => exact Noted.ensures_of_ok rfl trivial

theorem ensures_compile (p : Prompt) :
    (compile catalogs policy tf p).Ensures
      (fun c => ∀ col ∈ c.columns, col.Listed catalogs tf ∧ col.Labelled tf)
      ScreenError.AboutPrompt := by
  unfold compile
  refine ((ensures_resolveColumn catalogs tf _ _).mono fun left hleft => ?_).bind
  refine ((ensures_read policy _).mono fun operator _ => ?_).bind
  split
  · refine Noted.ensures_of_ok rfl fun col hcol => ?_
    rw [List.mem_singleton.mp hcol]
    exact hleft
  · refine ((ensures_resolveColumn catalogs tf _ _).mono fun right hright => ?_).bind
    refine Noted.ensures_of_ok rfl fun col hcol => ?_
    rcases List.mem_cons.mp hcol with rfl | hcol
    · exact hleft
    · rw [List.mem_singleton.mp hcol]
      exact hright

theorem ensures_compileAll (ps : List Prompt) :
    (compileAll catalogs policy tf ps).Ensures
      (fun cs => ∀ c ∈ cs, ∀ col ∈ c.columns, col.Listed catalogs tf ∧ col.Labelled tf)
      ScreenError.AboutPrompt := by
  induction ps with
  | nil => exact Noted.ensures_of_ok rfl fun c hc => absurd hc List.not_mem_nil
  | cons p ps ih =>
    refine ((ensures_compile catalogs policy tf p).mono fun c hc => ?_).bind
    refine (ih.mono fun cs hcs => ?_).bind
    exact Noted.ensures_of_ok rfl (List.forall_mem_cons.mpr ⟨hc, hcs⟩)

end Condition

namespace Screener

variable {σ : Type} (sc : Screener σ) (rule : Rule)

def conditions (tf : Timeframe) : Except ScreenError (List Condition) :=
  (Condition.compileAll sc.catalogs sc.settings.policy tf (rule.prompts tf)).outcome

/-- Timeframes in their order, each with its conditions. -/
structure Compiles (tfs : List Timeframe) (cs : List Compiled) : Prop where
  timeframes : cs.map Compiled.timeframe = tfs
  conditions : ∀ c ∈ cs, sc.conditions rule c.timeframe = .ok c.conditions

theorem ensures_compileActive (tfs : List Timeframe) :
    (sc.compileActive rule tfs).Ensures (sc.Compiles rule tfs) ScreenError.AboutPrompt := by
  induction tfs with
  | nil => exact Noted.ensures_of_ok rfl ⟨rfl, fun c hc => absurd hc List.not_mem_nil⟩
  | cons tf tfs ih =>
    have hall := Condition.ensures_compileAll sc.catalogs sc.settings.policy tf (rule.prompts tf)
    refine Noted.Ensures.bind ⟨fun cs hcs => ?_, hall.error⟩
    refine (ih.mono fun rest hrest => ?_).bind
    exact Noted.ensures_of_ok rfl ⟨congrArg (List.cons tf) hrest.timeframes,
      List.forall_mem_cons.mpr ⟨hcs, hrest.conditions⟩⟩

/-- A rule that compiles has prompts, and its compiled timeframes are the active ones. A rule
without prompts, or one of the prompts, is why it does not compile. -/
theorem ensures_compile :
    (sc.compile rule).Ensures (fun cs => rule.isEmpty = false ∧ sc.Compiles rule rule.active cs)
      fun e => rule.isEmpty ∧ e = .noActiveConditions ∨ rule.isEmpty = false ∧ e.AboutPrompt := by
  unfold compile
  cases hempty : rule.isEmpty with
  | true => exact Noted.ensures_of_error rfl (.inl ⟨rfl, rfl⟩)
  | false =>
    have hactive := sc.ensures_compileActive rule rule.active
    exact ⟨fun cs hcs => ⟨rfl, hactive.ok cs hcs⟩, fun e he => .inr ⟨rfl, hactive.error e he⟩⟩

end Screener

/-! ## Prompts in order -/

def Rule.allPrompts (rule : Rule) : List (Timeframe × Prompt) :=
  Timeframe.all.flatMap fun tf => (rule.prompts tf).map (tf, ·)

theorem Rule.isEmpty_iff (rule : Rule) : rule.isEmpty ↔ rule.allPrompts = [] := by
  simp [isEmpty, allPrompts]

theorem Condition.outcome_compileAll (catalogs : Catalogs) (policy : OperatorPolicy)
    (tf : Timeframe) (ps : List Prompt) :
    (compileAll catalogs policy tf ps).outcome =
      ps.mapM fun p => (compile catalogs policy tf p).outcome := by
  induction ps with
  | nil => rfl
  | cons p ps ih =>
    simp only [compileAll, Noted.outcome_bind, Noted.outcome_pure, ih, List.mapM_cons]
    rfl

namespace Screener

variable {σ : Type} (sc : Screener σ) (rule : Rule)

def condition (q : Timeframe × Prompt) : Except ScreenError Condition :=
  (Condition.compile sc.catalogs sc.settings.policy q.1 q.2).outcome

theorem outcome_compileActive (tfs : List Timeframe) :
    (sc.compileActive rule tfs).outcome.map (·.flatMap Compiled.conditions) =
      (tfs.flatMap fun tf => (rule.prompts tf).map (tf, ·)).mapM sc.condition := by
  induction tfs with
  | nil => rfl
  | cons tf tfs ih =>
    rw [List.flatMap_cons, List.mapM_append, ← ih, List.mapM_map]
    have hall := Condition.outcome_compileAll sc.catalogs sc.settings.policy tf (rule.prompts tf)
    simp only [compileActive, Noted.outcome_bind, Noted.outcome_pure, hall]
    change _ = ((rule.prompts tf).mapM fun p => sc.condition (tf, p)) >>= _
    simp only [condition]
    cases (rule.prompts tf).mapM fun p =>
        (Condition.compile sc.catalogs sc.settings.policy tf p).outcome with
    | error e => rfl
    | ok conds => cases (sc.compileActive rule tfs).outcome <;> rfl

theorem outcome_compile (hne : rule.allPrompts ≠ []) :
    (sc.compile rule).outcome.map (·.flatMap Compiled.conditions) =
      rule.allPrompts.mapM sc.condition := by
  have hempty : ¬ rule.isEmpty := mt rule.isEmpty_iff.mp hne
  have hactive : (rule.active.flatMap fun tf => (rule.prompts tf).map (tf, ·)) =
      rule.allPrompts :=
    flatMap_filter_of_nil _ fun tf _ h => by simpa using h
  rw [compile, if_neg hempty, outcome_compileActive, hactive]

variable {sc rule}

theorem outcome_compile_of_error {before after : List (Timeframe × Prompt)}
    {q : Timeframe × Prompt} {e : ScreenError} (hsplit : rule.allPrompts = before ++ q :: after)
    (hbefore : ∀ q ∈ before, ∃ c, sc.condition q = .ok c) (hq : sc.condition q = .error e) :
    (sc.compile rule).outcome = .error e := by
  have h := sc.outcome_compile rule (by simp [hsplit])
  rw [hsplit, mapM_eq_error hbefore hq] at h
  cases hc : (sc.compile rule).outcome with
  | error e' =>
    rw [hc] at h
    cases h
    rfl
  | ok cs =>
    rw [hc] at h
    cases h

theorem exists_compile (hne : rule.allPrompts ≠ [])
    (hall : ∀ q ∈ rule.allPrompts, ∃ c, sc.condition q = .ok c) :
    ∃ cs, (sc.compile rule).outcome = .ok cs := by
  obtain ⟨conds, hconds⟩ := exists_map_ok_iff.mpr hall
  have h := sc.outcome_compile rule hne
  rw [mapM_eq_ok_iff.mpr hconds] at h
  cases hc : (sc.compile rule).outcome with
  | error e =>
    rw [hc] at h
    cases h
  | ok cs => exact ⟨cs, rfl⟩

end Screener

end StockScreen

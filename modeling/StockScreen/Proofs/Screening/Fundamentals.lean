import Mathlib.Data.List.Sort
import StockScreen.Proofs.Lists
import StockScreen.Proofs.Ordered
import StockScreen.Proofs.Screening.Compilation
import StockScreen.Proofs.Session.Exchanges
import StockScreen.Screening.Fundamentals

/-! # What screening by fundamentals finds

Prompts compile as a whole before a store is asked for anything. Then each
table of the conditions is asked for once, in order, and a stock is found when
each of these tables has a row of it that satisfies all conditions of the
table. Neither the order of prompts and rows matters, nor their repetition.
-/

namespace StockScreen

open Query (Request)

/-- The row has no number in the column: no cell, a null one, or a text that reads as none. -/
def Row.Unreadable (row : Row) (column : String) : Prop :=
  row.lookup column = none ∨ row.lookup column = some .null ∨
    ∃ text, row.lookup column = some (.text text) ∧ Decimal.readFloat? (Text.trim text) = none

/-- The number that an operand stands for in a row. -/
inductive FundamentalOperand.Reads (row : Row) : FundamentalOperand → Float → Prop
  | number (x : Float) : Reads row (.number x) x
  | cell {column : String} {c : Cell} {x : Float} (hcell : row.lookup column = some c)
    (hx : c.number? = some x) : Reads row (.column column) x

namespace FundamentalCondition

/-- Both sides are numbers in the row, and compare as the condition says. Numbers are equal when
they differ by less than one in a billion. -/
def Satisfied (c : FundamentalCondition) (row : Row) : Prop :=
  ∃ x y, FundamentalOperand.Reads row (.column c.column) x ∧ c.right.Reads row y ∧
    match c.operator with
    | .greater => x > y
    | .less => x < y
    | .equal => (x - y).abs < 1e-9
    | .atLeast => x ≥ y
    | .atMost => x ≤ y

/-- The condition says what the prompt says: it compares a column of the table that owns the
indicator with a number, or with another column of the table. -/
structure Means (catalog : Catalog) (policy : OperatorPolicy) (p : FundamentalPrompt)
    (c : FundamentalCondition) : Prop where
  owner : ∃ entry, catalog.lookup p.indicator = .ok entry ∧ entry.home = .fundamental c.table ∧
    entry.column = c.column
  operator : (policy.read p.operator).outcome = .ok c.operator
  value : (∃ x, Decimal.readFloat? (Text.trim p.value) = some x ∧ c.right = .number x) ∨
    ∃ entry, catalog.lookup (Text.trim p.value) = .ok entry ∧ entry.home = .fundamental c.table ∧
      c.right = .column entry.column

def Compiles (catalog : Catalog) (policy : OperatorPolicy) (ps : List FundamentalPrompt)
    (conds : List FundamentalCondition) : Prop :=
  ps.map (fun p => (compile catalog policy p).outcome) = conds.map .ok

def groupOf (conds : List FundamentalCondition) (table : String) : Group :=
  ⟨table, conds.filter (·.table == table)⟩

variable {catalog : Catalog} {policy : OperatorPolicy} {ps ps' : List FundamentalPrompt}
  {conds conds' : List FundamentalCondition} {p : FundamentalPrompt} {c : FundamentalCondition}
  {row : Row} {allow : Option (List String)} {rows rows' : List Row} {table id : String}

theorem reads_iff {operand : FundamentalOperand} {x : Float} :
    operand.Reads row x ↔ operandIn row operand = some x := by
  constructor
  · rintro (_ | ⟨hcell, hx⟩)
    · rfl
    · rw [operandIn, Row.number?, hcell]
      exact hx
  · intro h
    cases operand with
    | number y =>
      cases h
      exact .number x
    | column name =>
      obtain ⟨cell, hcell, hx⟩ := Option.bind_eq_some_iff.mp h
      exact .cell hcell hx

theorem holds_iff : c.holds row ↔ c.Satisfied row := by
  have hleft : operandIn row (.column c.column) = row.number? c.column := rfl
  simp only [Satisfied, reads_iff, hleft, holds]
  cases row.number? c.column with
  | none => simp
  | some x =>
    cases operandIn row c.right with
    | none => simp
    | some y =>
      simp only [Option.some.injEq, exists_and_left, exists_eq_left']
      cases c.operator <;> exact decide_eq_true_iff

theorem not_reads_of_unreadable {x : Float} {column : String} (h : row.Unreadable column) :
    ¬ FundamentalOperand.Reads row (.column column) x := by
  rintro (_ | ⟨hcell, hx⟩)
  rcases h with h | h | ⟨text, h, htext⟩
  · cases h.symm.trans hcell
  · cases h.symm.trans hcell
    cases hx
  · cases h.symm.trans hcell
    cases htext.symm.trans hx

/-! ## Compiling -/

theorem fundamentalTable?_eq_some_iff {entry : Indicator} :
    entry.fundamentalTable? = some table ↔ entry.home = .fundamental table := by
  unfold Indicator.fundamentalTable?
  cases entry.home <;> simp

section

variable (hcatalog : ∀ entry ∈ catalog.entries, ∃ table, entry.home = .fundamental table)
include hcatalog

theorem value_of_resolveValue {right : FundamentalOperand}
    (h : resolveValue catalog p table = .ok right) :
    (∃ x, Decimal.readFloat? (Text.trim p.value) = some x ∧ right = .number x) ∨
      ∃ entry, catalog.lookup (Text.trim p.value) = .ok entry ∧
        entry.home = .fundamental table ∧ right = .column entry.column := by
  unfold resolveValue at h
  cases hx : Decimal.readFloat? (Text.trim p.value) with
  | some x =>
    simp only [hx] at h
    cases h
    exact .inl ⟨x, rfl, rfl⟩
  | none =>
    simp only [hx] at h
    have hlookup := catalog.ensures_lookup (Text.trim p.value)
    cases hentry : catalog.lookup (Text.trim p.value) with
    | error e => rw [hentry] at h; cases h
    | ok entry =>
      obtain ⟨other, hhome⟩ := hcatalog entry (hlookup.ok entry hentry)
      rw [hentry] at h
      simp only [bind, Except.bind, fundamentalTable?_eq_some_iff.mpr hhome,
        Option.getD_some] at h
      split at h
      · next heq =>
        cases h
        exact .inr ⟨entry, rfl, heq ▸ hhome, rfl⟩
      · cases h

theorem ensures_compile (policy : OperatorPolicy) (p : FundamentalPrompt) :
    (compile catalog policy p).Ensures (Means catalog policy p) fun _ => True := by
  unfold compile
  refine Noted.Ensures.bind ⟨fun left hleft => ?_, fun _ _ => trivial⟩
  cases htable : left.fundamentalTable? with
  | none => exact Noted.ensures_of_error rfl trivial
  | some table =>
    refine Noted.Ensures.bind ⟨fun operator hoperator => ?_, fun _ _ => trivial⟩
    refine Noted.Ensures.bind ⟨fun right hright => ?_, fun _ _ => trivial⟩
    rw [Noted.outcome_ofExcept] at hleft hright
    have hhome : left.home = .fundamental table := fundamentalTable?_eq_some_iff.mp htable
    refine Noted.ensures_of_ok rfl ?_
    exact ⟨⟨left, hleft, hhome, rfl⟩, hoperator, value_of_resolveValue hcatalog hright⟩

end

theorem outcome_compileEach :
    (compileEach catalog policy ps).outcome =
      ps.mapM fun p => (compile catalog policy p).outcome := by
  induction ps with
  | nil => rfl
  | cons p ps ih =>
    simp only [compileEach, Noted.outcome_bind, Noted.outcome_pure, ih, List.mapM_cons]
    rfl

theorem outcome_compileAll_of_compile (hne : ps ≠ []) (h : Compiles catalog policy ps conds) :
    (compileAll catalog policy ps).outcome = .ok (group conds) := by
  rw [compileAll, if_neg (by simpa using hne), Noted.outcome_bind, outcome_compileEach,
    mapM_eq_ok_iff.mpr h]
  rfl

theorem outcome_compileAll_of_error {before after : List FundamentalPrompt}
    {p : FundamentalPrompt} {e : ScreenError}
    (hbefore : ∀ q ∈ before, ∃ c, (compile catalog policy q).outcome = .ok c)
    (hp : (compile catalog policy p).outcome = .error e) :
    (compileAll catalog policy (before ++ p :: after)).outcome = .error e := by
  rw [compileAll, if_neg (by simp), Noted.outcome_bind, outcome_compileEach,
    mapM_eq_error hbefore hp]
  rfl

theorem Compiles.mem_iff (h : Compiles catalog policy ps conds) :
    c ∈ conds ↔ ∃ p ∈ ps, (compile catalog policy p).outcome = .ok c := by
  have hmem : Except.ok c ∈ conds.map (Except.ok (ε := ScreenError)) ↔ c ∈ conds := by simp
  rw [← hmem, ← h, List.mem_map]

theorem Compiles.ne_nil (h : Compiles catalog policy ps conds) (hne : ps ≠ []) : conds ≠ [] := by
  rintro rfl
  exact hne (List.map_eq_nil_iff.mp h)

/-! ## Groups -/

theorem mem_qualifying :
    id ∈ (groupOf conds table).qualifying allow rows ↔
      allows allow id ∧ ∃ row ∈ rows, row.text? entityColumn = some id ∧
        ∀ c ∈ conds, c.table = table → c.Satisfied row := by
  simp only [Group.qualifying, groupOf, mem_ascending, List.mem_filter, List.mem_filterMap,
    List.all_eq_true, beq_iff_eq, holds_iff]
  constructor
  · rintro ⟨⟨row, ⟨hrow, hall⟩, hid⟩, hallow⟩
    exact ⟨hallow, row, hrow, hid, fun c hc ht => hall c ⟨hc, ht⟩⟩
  · rintro ⟨hallow, row, hrow, hid, hall⟩
    exact ⟨⟨row, ⟨hrow, fun c hc => hall c hc.1 hc.2⟩, hid⟩, hallow⟩

theorem pairwise_qualifying (g : Group) : (g.qualifying allow rows).Pairwise (· < ·) :=
  pairwise_ascending _

theorem qualifying_congr (hconds : ∀ c, c ∈ conds' ↔ c ∈ conds)
    (hrows : ∀ row, row ∈ rows' ↔ row ∈ rows) :
    (groupOf conds' table).qualifying allow rows' =
      (groupOf conds table).qualifying allow rows := by
  refine (pairwise_qualifying _).eq_of_mem_iff (pairwise_qualifying _) fun id => ?_
  simp only [mem_qualifying, hconds, hrows]

theorem ascending_table_congr (hconds : ∀ c, c ∈ conds' ↔ c ∈ conds) :
    ascending (conds'.map (·.table)) = ascending (conds.map (·.table)) :=
  ascending_congr fun table => by simp only [List.mem_map, hconds]

end FundamentalCondition

namespace DataStore

/-- A store that differs from another one in the order of the rows only. -/
structure Rearranges {σ : Type} (store' store : DataStore σ) : Prop where
  rows : ∀ r s rows t, store.answer r s = (.ok rows, t) →
    ∃ rows', store'.answer r s = (.ok rows', t) ∧ rows'.Perm rows
  faults : ∀ r s fault t, store.answer r s = (.error fault, t) →
    store'.answer r s = (.error fault, t)

end DataStore

namespace Fundamentals

open DataStore (answered)
open FundamentalCondition (Compiles compile groupOf)

def Tables (conds : List FundamentalCondition) (tables : List String) : Prop :=
  tables.Pairwise (· < ·) ∧ ∀ table, table ∈ tables ↔ ∃ c ∈ conds, c.table = table

/-- The stock is allowed, and each table of the conditions has a row of the stock that satisfies
all conditions of the table. -/
def Selects (conds : List FundamentalCondition) (rows : Request → List Row)
    (allow : Option (List String)) (id : String) : Prop :=
  (∀ ids, allow = some ids → id ∈ ids) ∧ ∀ table, (∃ c ∈ conds, c.table = table) →
    ∃ row ∈ rows (.table table), row.text? entityColumn = some id ∧
      ∀ c ∈ conds, c.table = table → c.Satisfied row

variable {σ : Type} {store store' : DataStore σ} {catalog : Catalog} {policy : OperatorPolicy}
  {ps ps' : List FundamentalPrompt} {conds conds' : List FundamentalCondition}
  {allow : Option (List String)} {tables : List String} {lists : List (List String)}
  {rows rows' : Request → List Row} {s : σ} {id : String}

theorem tables_ascending (conds : List FundamentalCondition) :
    Tables conds (ascending (conds.map (·.table))) :=
  ⟨pairwise_ascending _, fun table => by simp⟩

theorem selects_congr (h : ∀ table, (∃ c ∈ conds, c.table = table) →
    rows (.table table) = rows' (.table table)) :
    Selects conds rows allow id ↔ Selects conds rows' allow id :=
  and_congr Iff.rfl (forall₂_congr fun table htable => by rw [h table htable])

theorem allows_iff : allows allow id ↔ ∀ ids, allow = some ids → id ∈ ids := by
  cases allow <;> simp [allows]

/-! ## Lists in common -/

theorem mem_common (hne : lists ≠ []) : id ∈ common lists ↔ ∀ ids ∈ lists, id ∈ ids := by
  cases lists with
  | nil => exact absurd rfl hne
  | cons ids rest => simp [common]

theorem pairwise_common (h : ∀ ids ∈ lists, ids.Pairwise (· < ·)) :
    (common lists).Pairwise (· < ·) := by
  cases lists with
  | nil => exact .nil
  | cons ids rest => exact (h ids List.mem_cons_self).filter _

def qualified (conds : List FundamentalCondition) (allow : Option (List String))
    (rows : Request → List Row) (tables : List String) : List (List String) :=
  tables.map fun table => (groupOf conds table).qualifying allow (rows (.table table))

theorem qualified_cons {table : String} :
    qualified conds allow rows (table :: tables) =
      (groupOf conds table).qualifying allow (rows (.table table)) ::
        qualified conds allow rows tables := rfl

theorem pairwise_common_qualified :
    (common (qualified conds allow rows tables)).Pairwise (· < ·) := by
  refine pairwise_common fun ids hids => ?_
  obtain ⟨table, -, rfl⟩ := List.mem_map.mp hids
  exact FundamentalCondition.pairwise_qualifying _

theorem mem_common_qualified (hne : conds ≠ []) (h : Tables conds tables) :
    id ∈ common (qualified conds allow rows tables) ↔ Selects conds rows allow id := by
  obtain ⟨c, hc⟩ := List.exists_mem_of_ne_nil _ hne
  have hsome : c.table ∈ tables := (h.2 _).mpr ⟨c, hc, rfl⟩
  have htables : qualified conds allow rows tables ≠ [] := by
    intro hnil
    rw [List.map_eq_nil_iff.mp hnil] at hsome
    cases hsome
  rw [mem_common htables, qualified, List.forall_mem_map]
  simp only [FundamentalCondition.mem_qualifying, allows_iff, Selects, ← h.2]
  constructor
  · intro hall
    exact ⟨(hall _ hsome).1, fun table ht => (hall table ht).2⟩
  · rintro ⟨hallow, hall⟩ table ht
    exact ⟨hallow, hall table ht⟩

/-! ## Asking for the tables -/

theorem table_not_mem {table : String} (h : table ∉ tables) :
    Request.table table ∉ tables.map Request.table := by
  intro hmem
  obtain ⟨other, hother, heq⟩ := List.mem_map.mp hmem
  cases heq
  exact h hother

theorem qualified_update [DecidableEq Request] {table : String} {xs : List Row}
    (h : table ∉ tables) :
    qualified conds allow (Function.update rows (.table table) xs) tables =
      qualified conds allow rows tables := by
  refine List.map_congr_left fun other hother => ?_
  rw [Function.update_of_ne]
  rintro ⟨⟩
  exact h hother

theorem askGroups_cons {table : String} :
    askGroups store allow ((table :: tables).map (groupOf conds)) = (do
      let rows ← store.ask (.table table)
      let rest ← askGroups store allow (tables.map (groupOf conds))
      pure ((groupOf conds table).qualifying allow rows :: rest)) := rfl

variable (store) in
/-- Tables are asked for in their order, until one of them fails. -/
theorem result_askGroups (conds : List FundamentalCondition) (allow : Option (List String))
    (hnd : tables.Nodup) (s : σ) (log : List DataStore.Exchange) :
    ∃ rows t,
      (askGroups store.recorded allow (tables.map (groupOf conds))).result (s, log) =
        (.ok (qualified conds allow rows tables), t,
          (answered rows (tables.map .table)).reverse ++ log) ∨
      ∃ done table rest fault, tables = done ++ table :: rest ∧
        (askGroups store.recorded allow (tables.map (groupOf conds))).result (s, log) =
          (.error (.store fault), t,
            ⟨.table table, .error fault⟩ :: (answered rows (done.map .table)).reverse ++ log) := by
  classical
  -- The rows of the first table are put beside those of the others, which are asked for later.
  induction tables generalizing s log with
  | nil => exact ⟨fun _ => [], s, .inl rfl⟩
  | cons table tables ih =>
    obtain ⟨hnot, hnd⟩ := List.nodup_cons.mp hnd
    rw [askGroups_cons]
    rcases hans : store.answer (.table table) s with ⟨fault | xs, u⟩
    · refine ⟨fun _ => [], u, .inr ⟨[], table, tables, fault, rfl, ?_⟩⟩
      exact Session.result_bind_of_error
        (DataStore.result_ask_of_fault (DataStore.answer_recorded log hans))
    · rw [Session.result_bind_of_ok
        (DataStore.result_ask_of_ok (DataStore.answer_recorded log hans))]
      obtain ⟨rows, t, hrun | ⟨done, other, rest, fault, rfl, hrun⟩⟩ :=
        ih hnd u (⟨.table table, .ok xs⟩ :: log)
      all_goals refine ⟨Function.update rows (.table table) xs, t, ?_⟩
      · refine .inl ?_
        rw [Session.result_bind_of_ok hrun, Session.result_pure, qualified_cons,
          qualified_update hnot, List.map_cons, DataStore.answered_cons,
          DataStore.answered_update (table_not_mem hnot), Function.update_self,
          List.reverse_cons, List.append_assoc, List.singleton_append]
      · refine .inr ⟨table :: done, other, rest, fault, rfl, ?_⟩
        have hdone : table ∉ done := fun h => hnot (List.mem_append_left _ h)
        rw [Session.result_bind_of_error hrun, List.map_cons, DataStore.answered_cons,
          DataStore.answered_update (table_not_mem hdone), Function.update_self,
          List.reverse_cons, List.cons_append, List.cons_append, List.append_assoc,
          List.singleton_append]

theorem result_askGroups_rearranged (h : store'.Rearranges store)
    (hconds : ∀ c, c ∈ conds' ↔ c ∈ conds) (s : σ) :
    (askGroups store' allow (tables.map (groupOf conds'))).result s =
      (askGroups store allow (tables.map (groupOf conds))).result s := by
  induction tables generalizing s with
  | nil => rfl
  | cons table tables ih =>
    rw [askGroups_cons, askGroups_cons]
    rcases hans : store.answer (.table table) s with ⟨fault | rows, u⟩
    · have hans' := h.faults _ _ _ _ hans
      rw [Session.result_bind_of_error (DataStore.result_ask_of_fault hans),
        Session.result_bind_of_error (DataStore.result_ask_of_fault hans')]
    · obtain ⟨rows', hans', hperm⟩ := h.rows _ _ _ _ hans
      rw [Session.result_bind_of_ok (DataStore.result_ask_of_ok hans),
        Session.result_bind_of_ok (DataStore.result_ask_of_ok hans'),
        FundamentalCondition.qualifying_congr hconds fun _ => hperm.mem_iff]
      exact Session.result_bind_congr (ih u)

/-! ## The stocks that prompts find -/

theorem result_ids_of_error {e : ScreenError}
    (h : (FundamentalCondition.compileAll catalog policy ps).outcome = .error e) :
    (ids store catalog policy ps allow).result s = (.error e, s) :=
  Session.result_bind_of_error (by rw [Session.result_ofNoted, h])

theorem result_ids_of_compile (hne : ps ≠ []) (h : Compiles catalog policy ps conds) :
    (ids store catalog policy ps allow).result s =
      (do
        let found ← askGroups store allow
          ((ascending (conds.map (·.table))).map (groupOf conds))
        pure (common found) : Session σ (List String)).result s := by
  refine Session.result_bind_of_ok ?_
  rw [Session.result_ofNoted, FundamentalCondition.outcome_compileAll_of_compile hne h]
  rfl

variable (allow) in
theorem exists_result_ids_error (h : ¬ ∃ conds, Compiles catalog policy ps conds) :
    ∃ e, ∀ (store : DataStore σ) s,
      (ids store catalog policy ps allow).result s = (.error e, s) := by
  rcases map_ok_or_error (fun p => (compile catalog policy p).outcome) ps with
    hc | ⟨before, p, after, e, rfl, hbefore, hp⟩
  · exact absurd hc h
  · exact ⟨e, fun _ _ =>
      result_ids_of_error (FundamentalCondition.outcome_compileAll_of_error hbefore hp)⟩

theorem compile_congr (hmem : ∀ p, p ∈ ps' ↔ p ∈ ps) :
    (∃ conds, Compiles catalog policy ps' conds) ↔ ∃ conds, Compiles catalog policy ps conds := by
  simp only [Compiles, exists_map_ok_iff, hmem]

variable (allow s) in
theorem result_ids_rearranged (h : store'.Rearranges store) (hmem : ∀ p, p ∈ ps' ↔ p ∈ ps)
    (hc : ∃ conds, Compiles catalog policy ps conds) :
    (ids store' catalog policy ps' allow).result s =
      (ids store catalog policy ps allow).result s := by
  obtain ⟨conds', hconds'⟩ := (compile_congr hmem).mpr hc
  obtain ⟨conds, hconds⟩ := hc
  have hsame : ∀ c, c ∈ conds' ↔ c ∈ conds := by simp [hconds'.mem_iff, hconds.mem_iff, hmem]
  by_cases hne : ps = []
  · subst hne
    obtain rfl : ps' = [] := List.eq_nil_iff_forall_not_mem.mpr fun p hp => by simp [hmem] at hp
    rw [result_ids_of_error rfl, result_ids_of_error rfl]
  · have hne' : ps' ≠ [] := by
      rintro rfl
      obtain ⟨p, hp⟩ := List.exists_mem_of_ne_nil _ hne
      simp [← hmem] at hp
    rw [result_ids_of_compile hne hconds, result_ids_of_compile hne' hconds',
      FundamentalCondition.ascending_table_congr hsame]
    exact Session.result_bind_congr (result_askGroups_rearranged h hsame s)

theorem askGroups_follows {τ : Type} {π : τ → σ} {fine : DataStore τ}
    (h : DataStore.Follows π fine store) (gs : List FundamentalCondition.Group) :
    Session.Follows π (askGroups fine allow gs) (askGroups store allow gs) := by
  induction gs with
  | nil => exact Session.follows_pure _
  | cons g gs ih => exact (h _).bind fun _ => ih.bind fun _ => Session.follows_pure _

variable (catalog policy ps allow) in
theorem ids_follows {τ : Type} {π : τ → σ} {fine : DataStore τ}
    (h : DataStore.Follows π fine store) :
    Session.Follows π (ids fine catalog policy ps allow) (ids store catalog policy ps allow) :=
  (Session.follows_ofNoted _).bind fun _ =>
    (askGroups_follows h _).bind fun _ => Session.follows_pure _

/-- What prompts find in a store that is in a state `s`, together with what is asked of it. -/
structure Screens (store : DataStore σ) (catalog : Catalog) (policy : OperatorPolicy)
    (ps : List FundamentalPrompt) (allow : Option (List String)) (s : σ) : Prop where
  /-- The exchanges are those of the store itself. -/
  exchanged : ∀ found t log,
    (ids store.recorded catalog policy ps allow).result (s, []) = (found, t, log) →
    (ids store catalog policy ps allow).result s = (found, t)
  /-- A compiled prompt is about the table that owns its indicator. -/
  means : (∀ entry ∈ catalog.entries, ∃ table, entry.home = .fundamental table) →
    ∀ p c, (compile catalog policy p).outcome = .ok c →
      FundamentalCondition.Means catalog policy p c
  /-- Without prompts nothing is asked. -/
  empty : ps = [] →
    (ids store.recorded catalog policy ps allow).result (s, []) =
      (.error .noActiveConditions, s, [])
  /-- The first prompt that does not compile is the error, and nothing is asked. -/
  refused : ∀ before p after e, ps = before ++ p :: after →
    (∀ q ∈ before, ∃ c, (compile catalog policy q).outcome = .ok c) →
    (compile catalog policy p).outcome = .error e →
    (ids store.recorded catalog policy ps allow).result (s, []) = (.error e, s, [])
  /-- Otherwise each table of the conditions is asked for once, in order, up to one that fails. -/
  asked : ∀ conds, ps ≠ [] → Compiles catalog policy ps conds →
    ∃ tables rows t, Tables conds tables ∧
      ((∃ found, (ids store.recorded catalog policy ps allow).result (s, []) =
          (.ok found, t, (answered rows (tables.map .table)).reverse) ∧
        found.Pairwise (· < ·) ∧ ∀ id, id ∈ found ↔ Selects conds rows allow id) ∨
      ∃ done table rest fault, tables = done ++ table :: rest ∧
        (ids store.recorded catalog policy ps allow).result (s, []) =
          (.error (.store fault), t,
            ⟨.table table, .error fault⟩ :: (answered rows (done.map .table)).reverse))
  /-- An operand without a number satisfies no condition. -/
  unreadable : ∀ (c : FundamentalCondition) (row : Row) column, row.Unreadable column →
    column = c.column ∨ c.right = .column column → ¬ c.Satisfied row
  /-- Neither the order nor the repetition of prompts matters, nor the order of rows. -/
  rearranged : ∀ store' ps', store'.Rearranges store → (∀ p, p ∈ ps' ↔ p ∈ ps) →
    ((ids store' catalog policy ps' allow).result s).1.toOption =
        ((ids store catalog policy ps allow).result s).1.toOption ∧
      ((ids store' catalog policy ps' allow).result s).2 =
        ((ids store catalog policy ps allow).result s).2 ∧
      ((∃ conds, Compiles catalog policy ps conds) →
        (ids store' catalog policy ps' allow).result s =
          (ids store catalog policy ps allow).result s)

/-- Screening by fundamentals finds the allowed stocks that have, in every table of the prompts, a
row satisfying all prompts of the table. It asks for each table once, and for none before all
prompts have compiled. -/
theorem ids_screen (store : DataStore σ) (catalog : Catalog) (policy : OperatorPolicy)
    (ps : List FundamentalPrompt) (allow : Option (List String)) (s : σ) :
    Screens store catalog policy ps allow s where
  exchanged := by
    intro found t log hrun
    have hfollows := ids_follows catalog policy ps allow (DataStore.recorded_follows store)
    rw [hfollows.result (s, []), hrun]
  means := fun hcatalog p => (FundamentalCondition.ensures_compile hcatalog policy p).ok
  empty := by
    rintro rfl
    exact result_ids_of_error rfl
  refused := by
    rintro before p after e rfl hbefore hp
    exact result_ids_of_error (FundamentalCondition.outcome_compileAll_of_error hbefore hp)
  asked := by
    intro conds hne hconds
    have htables := tables_ascending conds
    obtain ⟨rows, t, hrun⟩ := result_askGroups store conds allow
      (nodup_ascending (conds.map (·.table))) s []
    refine ⟨_, rows, t, htables, ?_⟩
    rw [result_ids_of_compile hne hconds]
    rcases hrun with hrun | ⟨done, table, rest, fault, hsplit, hrun⟩
    · refine .inl ⟨common (qualified conds allow rows _), ?_, pairwise_common_qualified, fun id =>
        mem_common_qualified (hconds.ne_nil hne) htables⟩
      rw [Session.result_bind_of_ok hrun, Session.result_pure, List.append_nil]
    · refine .inr ⟨done, table, rest, fault, hsplit, ?_⟩
      rw [Session.result_bind_of_error hrun, List.append_nil]
  unreadable := by
    rintro c row column hrow (rfl | hright) ⟨x, y, hx, hy, -⟩
    · exact FundamentalCondition.not_reads_of_unreadable hrow hx
    · exact FundamentalCondition.not_reads_of_unreadable hrow (hright ▸ hy)
  rearranged := by
    intro store' ps' hstore hmem
    by_cases hc : ∃ conds, Compiles catalog policy ps conds
    · have hsame := result_ids_rearranged allow s hstore hmem hc
      exact ⟨by rw [hsame], by rw [hsame], fun _ => hsame⟩
    · have hc' : ¬ ∃ conds, Compiles catalog policy ps' conds := mt (compile_congr hmem).mp hc
      obtain ⟨e, he⟩ := exists_result_ids_error allow hc
      obtain ⟨e', he'⟩ := exists_result_ids_error allow hc'
      rw [he, he']
      exact ⟨rfl, rfl, fun h => absurd h hc⟩

def metrics : List Row :=
  [[("stock_id", .text "A"), ("pe", .integer 8)], [("stock_id", .text "B"), ("pe", .integer 30)],
    [("stock_id", .text "C"), ("pe", .null)]]

def earnings : List Row :=
  [[("stock_id", .text "A"), ("eps_recent_q1", .integer 2), ("eps_recent_y1", .text " 1.5 ")],
    [("stock_id", .text "B"), ("eps_recent_q1", .integer 2), ("eps_recent_y1", .integer 1)]]

def reportRows : Request → List Row
  | .table "financial_metric" => metrics
  | .table "recent_fundamental" => earnings
  | _ => []

def reports : DataStore Unit := ⟨fun r s => (.ok (reportRows r), s)⟩

def cheapPrompts : List FundamentalPrompt :=
  [⟨"eps last quarter", ">", "eps last year"⟩, ⟨"price to earnings", "<=", "12"⟩]

def cheapConditions : List FundamentalCondition :=
  [⟨"recent_fundamental", "eps_recent_q1", .greater, .column "eps_recent_y1"⟩,
    ⟨"financial_metric", "pe", .atMost, .number (Float.ofScientific 12 false 0)⟩]

theorem tables_cheap : Tables cheapConditions ["financial_metric", "recent_fundamental"] :=
  ⟨by decide, fun table => by simp [cheapConditions, or_comm, eq_comm]⟩

theorem selects_cheap (id : String) : Selects cheapConditions reportRows none id ↔ id = "A" := by
  have hne : cheapConditions ≠ [] := List.cons_ne_nil _ _
  have hmetrics : (metrics.filter fun row =>
      (groupOf cheapConditions "financial_metric").conditions.all (·.holds row)).filterMap
        (Row.text? · entityColumn) = ["A"] := by
    decide +kernel
  have hearnings : (earnings.filter fun row =>
      (groupOf cheapConditions "recent_fundamental").conditions.all (·.holds row)).filterMap
        (Row.text? · entityColumn) = ["A", "B"] := by
    decide +kernel
  rw [← mem_common_qualified hne tables_cheap]
  simp +contextual [qualified, common, FundamentalCondition.Group.qualifying, reportRows, hmetrics,
    hearnings, allows]

/-- One stock earns more than it did and is cheap, and the others fail in one of the tables. -/
theorem cheap_found :
    (ids reports Standard.fundamentalCatalog .strict cheapPrompts none).result () =
        (.ok ["A"], ()) ∧
      ∀ id, Selects cheapConditions reportRows none id ↔ id = "A" := by
  have hcompiles : Compiles Standard.fundamentalCatalog .strict cheapPrompts cheapConditions := rfl
  have hascending : ascending (cheapConditions.map (·.table)) =
      ["financial_metric", "recent_fundamental"] :=
    (pairwise_ascending _).eq_of_mem_iff tables_cheap.1 fun table =>
      ((tables_ascending cheapConditions).2 table).trans (tables_cheap.2 table).symm
  have hrun : ((ids reports.recorded Standard.fundamentalCatalog .strict cheapPrompts none).result
      ((), [])).2 = ((), [⟨.table "recent_fundamental", .ok earnings⟩,
        ⟨.table "financial_metric", .ok metrics⟩]) := by
    rw [result_ids_of_compile (by decide) hcompiles, hascending]
    rfl
  have hscreen := ids_screen reports Standard.fundamentalCatalog .strict cheapPrompts none ()
  refine ⟨?_, selects_cheap⟩
  obtain ⟨tables, rows, t, htables, ⟨found, hfound, hasc, hselects⟩ |
    ⟨done, table, rest, fault, -, hfailed⟩⟩ := hscreen.asked _ (by decide) hcompiles
  · rw [hfound] at hrun
    have hanswered : answered rows (tables.map .table) = [⟨.table "financial_metric", .ok metrics⟩,
        ⟨.table "recent_fundamental", .ok earnings⟩] :=
      List.reverse_injective (congrArg Prod.snd hrun)
    have hrows : ∀ table, (∃ c ∈ cheapConditions, c.table = table) →
        rows (.table table) = reportRows (.table table) := by
      intro table htable
      have hmem : ⟨.table table, .ok (rows (.table table))⟩ ∈ answered rows (tables.map .table) :=
        List.mem_map_of_mem (List.mem_map_of_mem ((htables.2 table).mpr htable))
      rw [hanswered, List.mem_pair] at hmem
      rcases hmem with h | h <;> obtain ⟨⟨⟩, hrows⟩ := DataStore.Exchange.mk.inj h <;>
        exact Except.ok.inj hrows
    have hids : found = ["A"] := by
      refine hasc.eq_of_mem_iff (List.pairwise_singleton _ _) fun id => ?_
      rw [hselects, selects_congr hrows, selects_cheap, List.mem_singleton]
    exact hids ▸ hscreen.exchanged _ _ _ hfound
  · rw [hfailed] at hrun
    cases congrArg Prod.snd hrun

end Fundamentals

end StockScreen

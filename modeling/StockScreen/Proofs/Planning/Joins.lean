import Mathlib.Data.String.Basic
import StockScreen.Proofs.Planning.Aliases

/-! # The tables that a plan joins

A plan joins each shifted table that its conditions refer to once, in order,
where the window has a date for it. The other tables are dropped, and the
conditions that need them are false. Which tables these are depends on the
columns of the conditions only.
-/

namespace StockScreen

namespace Shift

variable {a b : Shift}

def Before (a b : Shift) : Prop :=
  a.offset < b.offset ∨ a.offset = b.offset ∧ a.kind = .raw ∧ b.kind = .derived

theorem before_iff : a.Before b ↔ Shift.le a b ∧ a ≠ b := by
  rcases a with ⟨m, _ | _⟩ <;> rcases b with ⟨n, _ | _⟩ <;>
    simp [Before, Shift.le, TableKind.rank] <;> omega

end Shift

/-- One of the conditions has a column of the table, which is not that of the anchor. -/
def Refers (cs : List Condition) (s : Shift) : Prop :=
  0 < s.offset ∧ ∃ c ∈ cs, ∃ col ∈ c.columns, col.target = .shifted s.offset s.kind

theorem ColumnRef.shift?_eq_some_iff {col : ColumnRef} {s : Shift} :
    col.shift? = some s ↔ 0 < s.offset ∧ col.target = .shifted s.offset s.kind := by
  unfold shift?
  cases col.target with
  | table name => simp
  | shifted offset kind =>
    rcases s with ⟨offset', kind'⟩
    simp only [Option.ite_none_right_eq_some, Option.some.injEq, Shift.mk.injEq,
      Target.shifted.injEq]
    constructor
    · rintro ⟨hpos, rfl, rfl⟩
      exact ⟨hpos, rfl, rfl⟩
    · rintro ⟨hpos, rfl, rfl⟩
      exact ⟨hpos, rfl, rfl⟩

theorem ColumnRef.table?_eq_some_iff {col : ColumnRef} {name : String} :
    col.table? = some name ↔ col.target = .table name := by
  unfold table?
  cases col.target <;> simp

theorem mem_referenced_iff {cs : List Condition} {s : Shift} :
    s ∈ referenced cs ↔ Refers cs s := by
  simp only [mem_referenced, ColumnRef.shift?_eq_some_iff, List.mem_flatMap, Refers]
  constructor
  · rintro ⟨col, ⟨c, hc, hcol⟩, hpos, htarget⟩
    exact ⟨hpos, c, hc, col, hcol, htarget⟩
  · rintro ⟨hpos, c, hc, col, hcol, htarget⟩
    exact ⟨col, ⟨c, hc, hcol⟩, hpos, htarget⟩

theorem pairwise_referenced (cs : List Condition) : (referenced cs).Pairwise Shift.Before :=
  (pairwise_arrange Shift.le Shift.le_trans Shift.le_total Shift.le_antisymm _).imp
    Shift.before_iff.mpr

namespace Condition

/-- The condition has a column so far back that the window has no date for it. -/
def ReachesBeyond (w : Window) (c : Condition) : Prop :=
  ∃ col ∈ c.columns, ∃ offset kind,
    col.target = .shifted offset kind ∧ 0 < offset ∧ w.dates.length ≤ offset

def swapped (c : Condition) : Condition :=
  match c.right with
  | .column r => { c with left := r, right := .column c.left }
  | .literal _ => c

/-- The predicate compares the left column of the condition, under the alias of its table, with the
right column or with the text. -/
inductive Compares : Condition → Query.Predicate → Prop
  | columns (l r : ColumnRef) (op : Comparison) :
    Compares ⟨l, op, .column r⟩
      (.compare (.column l.aliasName l.column) op (.column r.aliasName r.column))
  | text (l : ColumnRef) (op : Comparison) (text : String) :
    Compares ⟨l, op, .literal text⟩
      (.compare (.column l.aliasName l.column) op (.literal text))

/-- Conditions in another order, repeated, or with their columns swapped. -/
inductive Rearranges : List Condition → List Condition → Prop
  | permuted {cs cs' : List Condition} (h : cs'.Perm cs) : Rearranges cs' cs
  | repeated {cs : List Condition} {c : Condition} (h : c ∈ cs) : Rearranges (c :: cs) cs
  | swapped (before : List Condition) (c : Condition) (after : List Condition) :
    Rearranges (before ++ c.swapped :: after) (before ++ c :: after)
  | trans {cs cs' cs'' : List Condition} (h : Rearranges cs'' cs') (h' : Rearranges cs' cs) :
    Rearranges cs'' cs

theorem mem_columns_swapped {c : Condition} {col : ColumnRef} :
    col ∈ c.swapped.columns ↔ col ∈ c.columns := by
  rcases c with ⟨left, operator, right | text⟩
  · simp [swapped, columns, Operand.column?, or_comm]
  · rfl

theorem Rearranges.mem_columns {cs cs' : List Condition} (h : Rearranges cs' cs)
    (col : ColumnRef) :
    col ∈ cs'.flatMap columns ↔ col ∈ cs.flatMap columns := by
  induction h with
  | permuted h => exact (h.flatMap_right columns).mem_iff
  | repeated h =>
    simp only [List.flatMap_cons, List.mem_append, or_iff_right_iff_imp]
    exact fun hcol => List.mem_flatMap.mpr ⟨_, h, hcol⟩
  | swapped before c after => simp [mem_columns_swapped]
  | trans _ _ ih ih' => exact ih.trans ih'

theorem Rearranges.referenced_eq {cs cs' : List Condition} (h : Rearranges cs' cs) :
    referenced cs' = referenced cs := by
  refine arrange_congr _ Shift.le_trans Shift.le_total Shift.le_antisymm fun s => ?_
  simp only [List.mem_filterMap, h.mem_columns]

theorem Rearranges.referencedTables_eq {cs cs' : List Condition} (h : Rearranges cs' cs) :
    referencedTables cs' = referencedTables cs := by
  refine ascending_congr fun name => ?_
  simp only [List.mem_filterMap, h.mem_columns]

end Condition

namespace Plan

variable {tf tf' : Timeframe} {cs cs' : List Condition} {w : Window}
  {allow allow' : Option (List String)} {s : Shift} {c : Condition}

/-- What a plan joins for its conditions, and what becomes of these, with a window. -/
structure JoinsReferenced (cs : List Condition) (w : Window) (p : Plan) : Prop where
  joins_ascending : (p.joins.map DatedShift.shift).Pairwise Shift.Before
  dropped_ascending : p.dropped.Pairwise Shift.Before
  disjoint : ∀ s ∈ p.joins.map DatedShift.shift, s ∉ p.dropped
  referenced : ∀ s, s ∈ p.joins.map DatedShift.shift ∨ s ∈ p.dropped ↔ Refers cs s
  joined : ∀ s, Refers cs s →
    (s ∈ p.joins.map DatedShift.shift ↔ s.offset < w.dates.length)
  dated : ∀ d ∈ p.joins, w.dates[d.shift.offset]? = some d.date
  tables_ascending : p.fundamentals.Pairwise (· < ·)
  tables : ∀ name, name ∈ p.fundamentals ↔
    ∃ c ∈ cs, ∃ col ∈ c.columns, col.target = .table name
  filtered : p.query.filter =
    .all (p.datePredicate :: p.allowPredicates ++ cs.map p.conditionPredicate)
  never : ∀ c ∈ cs, p.conditionPredicate c = .never ↔ c.ReachesBeyond w
  compared : ∀ c ∈ cs, ¬ c.ReachesBeyond w → c.Compares (p.conditionPredicate c)

theorem mem_map_shift_joins :
    s ∈ (make tf cs w allow).joins.map DatedShift.shift ↔
      Refers cs s ∧ s.offset < w.dates.length := by
  simp [map_shift_joins, mem_referenced_iff, Window.dateAt?]

theorem mem_dropped :
    s ∈ (make tf cs w allow).dropped ↔ Refers cs s ∧ w.dates.length ≤ s.offset := by
  simp [make, mem_referenced_iff, Window.dateAt?]

/-- A condition needs a dropped table where it reaches beyond the window. -/
theorem any_isDropped_iff (hc : c ∈ cs) :
    c.columns.any (make tf cs w allow).isDropped ↔ c.ReachesBeyond w := by
  simp only [List.any_eq_true, Condition.ReachesBeyond]
  refine exists_congr fun col => and_congr_right fun hcol => ?_
  unfold isDropped
  cases htarget : col.target with
  | table name => simp
  | shifted offset kind =>
    simp only [List.contains_iff_mem, mem_dropped, Target.shifted.injEq]
    constructor
    · rintro ⟨⟨hpos, -⟩, hle⟩
      exact ⟨offset, kind, ⟨rfl, rfl⟩, hpos, hle⟩
    · rintro ⟨_, _, ⟨rfl, rfl⟩, hpos, hle⟩
      exact ⟨⟨hpos, c, hc, col, hcol, htarget⟩, hle⟩

theorem conditionPredicate_eq_never_iff (hc : c ∈ cs) :
    (make tf cs w allow).conditionPredicate c = .never ↔ c.ReachesBeyond w := by
  unfold conditionPredicate
  split
  · next h => exact iff_of_true rfl ((any_isDropped_iff hc).mp h)
  · next h => exact iff_of_false nofun (mt (any_isDropped_iff hc).mpr h)

theorem compares_conditionPredicate (hc : c ∈ cs) (h : ¬ c.ReachesBeyond w) :
    c.Compares ((make tf cs w allow).conditionPredicate c) := by
  rw [conditionPredicate, if_neg (mt (any_isDropped_iff hc).mp h)]
  rcases c with ⟨left, op, right | text⟩
  · exact .columns left right op
  · exact .text left op text

/-- A plan joins what its conditions refer to and the window reaches, and nothing else. Conditions
that are rearranged do not change what it joins. -/
theorem make_joins_referenced (tf : Timeframe) (cs : List Condition) (w : Window)
    (allow : Option (List String)) :
    (make tf cs w allow).JoinsReferenced cs w ∧
      ∀ cs', Condition.Rearranges cs' cs →
        (make tf cs' w allow).joins = (make tf cs w allow).joins ∧
          (make tf cs' w allow).dropped = (make tf cs w allow).dropped ∧
          (make tf cs' w allow).fundamentals = (make tf cs w allow).fundamentals := by
  refine ⟨?_, fun cs' h => ?_⟩
  · exact
      { joins_ascending := map_shift_joins ▸ (pairwise_referenced cs).filter _
        dropped_ascending := (pairwise_referenced cs).filter _
        disjoint := fun s hs hdropped =>
          Nat.not_lt.mpr (mem_dropped.mp hdropped).2 (mem_map_shift_joins.mp hs).2
        referenced := fun s => by
          rw [mem_map_shift_joins, mem_dropped, ← and_or_left]
          exact and_iff_left (Nat.lt_or_ge s.offset w.dates.length)
        joined := fun s hs => mem_map_shift_joins.trans (and_iff_right hs)
        dated := fun d hd => (shift_of_mem_joins hd).2
        tables_ascending := pairwise_ascending _
        tables := fun name => by
          change name ∈ referencedTables cs ↔ _
          simp only [mem_referencedTables, ColumnRef.table?_eq_some_iff, List.mem_flatMap]
          constructor
          · rintro ⟨col, ⟨c, hc, hcol⟩, htarget⟩
            exact ⟨c, hc, col, hcol, htarget⟩
          · rintro ⟨c, hc, col, hcol, htarget⟩
            exact ⟨col, ⟨c, hc, hcol⟩, htarget⟩
        filtered := rfl
        never := fun c hc => conditionPredicate_eq_never_iff hc
        compared := fun c hc h => compares_conditionPredicate hc h }
  · simp only [make, h.referenced_eq, h.referencedTables_eq, and_self]

end Plan

end StockScreen

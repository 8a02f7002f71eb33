import Mathlib.Data.List.Nodup
import StockScreen.Proofs.Query.NestedLoops

/-! # Joins around an anchor

Every join of a statement may look at the anchor and at its own table only. If
at most one row of each table meets the anchor, then the anchor leads to one
scope, or to none when an inner join misses its row.
-/

namespace StockScreen.Query

variable {anchor b : Binding} {scope : Scope} {j : OpenJoin} {js : List OpenJoin}
  {row? : Option Row}

/-- Wherever the anchor is in scope, a join meets the same row, or none. -/
def OpenJoin.Meets (j : OpenJoin) (anchor : Binding) (row? : Option Row) : Prop :=
  ∀ scope, Scope.find scope anchor.aliasName = some anchor → j.matching scope = row?.toList

def OpenJoin.partner? (j : OpenJoin) (anchor : Binding) : Option Row :=
  (j.matching [anchor]).head?

theorem OpenJoin.Meets.partner?_eq (h : j.Meets anchor row?) : j.partner? anchor = row? := by
  rw [partner?, h [anchor] (Scope.find_cons_self ..)]
  cases row? <;> rfl

/-- A left join can do without a row. -/
def OpenJoin.passes (j : OpenJoin) (row? : Option Row) : Bool :=
  j.join.kind == .left || row?.isSome

/-- The binding of the row that a join meets; if there is none, it has no cells. -/
def OpenJoin.bound (j : OpenJoin) (row? : Option Row) : Binding := j.bind (row?.getD [])

theorem extend_of_matching (h : j.matching scope = row?.toList) :
    j.extend scope = if j.passes row? then [j.bound row? :: scope] else [] := by
  unfold OpenJoin.extend OpenJoin.passes OpenJoin.bound
  rw [h]
  cases j.join.kind <;> cases row? <;> rfl

theorem extendAll_of_meets {row? : OpenJoin → Option Row}
    (hmeets : ∀ j ∈ js, j.Meets anchor (row? j))
    (hne : ∀ j ∈ js, j.join.aliasName ≠ anchor.aliasName)
    (hanchor : Scope.find scope anchor.aliasName = some anchor) :
    extendAll js scope =
      if js.all fun j => j.passes (row? j) then
        [(js.map fun j => j.bound (row? j)).reverse ++ scope]
      else [] := by
  induction js generalizing scope with
  | nil => rfl
  | cons j js ih =>
    obtain ⟨hj, hjs⟩ := List.forall_mem_cons.mp hmeets
    obtain ⟨hnj, hnjs⟩ := List.forall_mem_cons.mp hne
    rw [extendAll, extend_of_matching (hj scope hanchor), List.all_cons]
    cases hp : j.passes (row? j) with
    | false => rfl
    | true =>
      have hnext : Scope.find (j.bound (row? j) :: scope) anchor.aliasName = some anchor :=
        (Scope.find_cons_of_ne hnj).trans hanchor
      rw [if_pos rfl, List.flatMap_singleton, ih hjs hnjs hnext, Bool.true_and]
      simp

theorem Scope.find_of_mem (hn : (scope.map Binding.aliasName).Nodup) (hb : b ∈ scope) :
    Scope.find scope b.aliasName = some b :=
  find?_key hb fun _ hb' ha => List.inj_on_of_nodup_map hn hb' hb ha

end StockScreen.Query

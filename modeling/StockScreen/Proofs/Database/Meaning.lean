import StockScreen.Proofs.Query.Lexing
import StockScreen.Proofs.Query.SetOperators

/-! # The meaning of requests for stocks

A request for stocks means the combination of what its statements select by
nested loops. The database gives this answer, unless it refuses the request
because a statement is cut off or too deep, or names a table that is missing.
-/

namespace StockScreen

open Query

namespace Query

def Select.Clear (s : Select) : Prop := (s.aliasName :: s.joins.map Join.aliasName).Nodup

def headed (selects : List Select) (cells : List Cell) : List Row :=
  cells.map fun cell => [((selects.head?.map Select.heading).getD entityColumn, cell)]

end Query

namespace Database

variable {db : Database} {mode : CombineMode} {selects : List Select} {s : Select}

/-- Every request for stocks gets what its statements mean, in any order. -/
def Explains (db : Database) (rows : Request → List Row) : Prop :=
  ∀ mode selects cells, selects ≠ [] → (∀ s ∈ selects, s.Clear ∧ s.Plain) →
    db.combined mode selects = .ok cells →
      (rows (.matching mode selects)).Perm (headed selects cells)

theorem nestedLoops_of_select {cells : List Cell} (hs : s.Clear) (h : db.select s = .ok cells) :
    db.nestedLoops s = .ok cells := by
  rcases Nat.lt_or_ge greatestHeight s.height with hdeep | hdeep
  · rw [select, if_pos hdeep] at h
    cases h
  · have hne : ∀ j ∈ s.joins, j.aliasName ≠ s.aliasName := fun j hj heq =>
      (List.nodup_cons.mp hs).1 (heq ▸ List.mem_map_of_mem hj)
    rw [← select_eq_nestedLoops db s hdeep hne, h]

theorem foldlM_of_select {cells cells' : List Cell} (hclear : ∀ s ∈ selects, s.Clear)
    (h : selects.foldlM (fun cells s => do pure (mode.merge cells (← db.select s))) cells =
      .ok cells') :
    selects.foldlM (fun cells s => do pure (mode.merge cells (← db.nestedLoops s))) cells =
      .ok cells' := by
  induction selects generalizing cells with
  | nil => exact h
  | cons s selects ih =>
    obtain ⟨hs, hselects⟩ := List.forall_mem_cons.mp hclear
    rw [List.foldlM_cons] at h ⊢
    cases hsel : db.select s with
    | error fault => rw [hsel] at h; cases h
    | ok found =>
      rw [hsel] at h
      rw [nestedLoops_of_select hs hsel]
      exact ih hselects h

theorem combined_of_selectAll {cells : List Cell} (hclear : ∀ s ∈ selects, s.Clear)
    (h : db.selectAll mode selects = .ok cells) : db.combined mode selects = .ok cells := by
  cases selects with
  | nil => exact h
  | cons s more =>
    obtain ⟨hs, hmore⟩ := List.forall_mem_cons.mp hclear
    rw [selectAll] at h
    rw [combined]
    cases hsel : db.select s with
    | error fault => rw [hsel] at h; cases h
    | ok found =>
      rw [hsel] at h
      rw [nestedLoops_of_select hs hsel]
      exact foldlM_of_select hmore h

theorem answer_matching {rows : List Row} (hclear : ∀ s ∈ selects, s.Clear)
    (h : db.answer (.matching mode selects) = .ok rows) :
    ∃ cells, db.combined mode selects = .ok cells ∧ rows = headed selects cells := by
  unfold answer at h
  split at h
  · cases h
  · rw [rowsFor] at h
    cases hall : db.selectAll mode selects with
    | error fault => rw [hall] at h; cases h
    | ok cells =>
      rw [hall] at h
      cases h
      exact ⟨cells, combined_of_selectAll hclear hall, rfl⟩

/-- What the database answers, or would answer if it refused nothing. -/
def meaning (db : Database) (r : Request) : List Row :=
  match db.answer r with
  | .ok rows => rows
  | .error _ =>
    match r with
    | .matching mode selects => headed selects ((db.combined mode selects).toOption.getD [])
    | _ => []

theorem explains_meaning (db : Database) : db.Explains db.meaning := by
  intro mode selects cells _ hselects hcells
  have hclear : ∀ s ∈ selects, s.Clear := fun s hs => (hselects s hs).1
  refine List.Perm.of_eq ?_
  rw [meaning]
  cases ha : db.answer (.matching mode selects) with
  | ok rows =>
    obtain ⟨cells', hcells', rfl⟩ := answer_matching hclear ha
    cases hcells.symm.trans hcells'
    rfl
  | error fault => simp [hcells, Except.toOption]

end Database

end StockScreen

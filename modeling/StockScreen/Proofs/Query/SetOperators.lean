import Mathlib.Logic.Basic
import StockScreen.Database.Store
import StockScreen.Proofs.Query.NestedLoops

/-! # Statements combined as sets

Several statements are combined from left to right, two results at a time and
without repetitions. The texts that come out are those of all results, or those
of any result.
-/

namespace StockScreen

open Query

theorem Cell.text_same {c : Cell} {s : String} : (Cell.text s).same c = true ↔ c = .text s := by
  cases c <;> simp [same, order?, eq_comm (a := s)]

theorem distinctCells_keeps (cells : List Cell) :
    distinctCells cells ⊆ cells ∧ ∀ s, .text s ∈ cells → .text s ∈ distinctCells cells := by
  unfold distinctCells
  cases cells with
  | nil => exact ⟨List.Subset.refl _, fun _ h => h⟩
  | cons c cells =>
    obtain ⟨hsub, hkeep⟩ := distinctCells_keeps (cells.filter fun b => decide (b.same c = false))
    rw [List.eraseDupsBy_cons]
    refine ⟨List.cons_subset_cons c (List.Subset.trans hsub List.filter_sublist.subset), ?_⟩
    intro s hs
    by_cases hsame : (Cell.text s).same c
    · rw [Cell.text_same.mp hsame]
      exact List.mem_cons_self
    · have hne : c ≠ .text s := fun h => hsame (Cell.text_same.mpr h)
      have hs' : .text s ∈ cells := (List.mem_cons.mp hs).resolve_left hne.symm
      exact List.mem_cons_of_mem _ (hkeep s (List.mem_filter.mpr ⟨hs', by simpa using hsame⟩))
termination_by cells.length
decreasing_by
  have h := List.length_filter_le (fun b : Cell => decide (b.same c = false)) cells
  simp only [List.length_cons]
  omega

theorem text_mem_distinctCells {s : String} {cells : List Cell} :
    .text s ∈ distinctCells cells ↔ .text s ∈ cells :=
  ⟨fun h => (distinctCells_keeps cells).1 h, (distinctCells_keeps cells).2 s⟩

namespace Query.CombineMode

variable {mode : CombineMode} {xs ys : List Cell}

/-- A property of all elements, or of any of them. -/
def Decides {α : Type} (mode : CombineMode) (xs : List α) (p : α → Prop) : Prop :=
  match mode with
  | intersect => ∀ x ∈ xs, p x
  | union => ∃ x ∈ xs, p x

theorem decides_congr {α : Type} {xs : List α} {p q : α → Prop} (h : ∀ x ∈ xs, (p x ↔ q x)) :
    mode.Decides xs p ↔ mode.Decides xs q := by
  cases mode with
  | intersect => exact forall₂_congr h
  | union => exact exists_congr fun x => and_congr_right (h x)

theorem decides_map {α β : Type} {f : α → β} {xs : List α} {p : β → Prop} :
    mode.Decides (xs.map f) p ↔ mode.Decides xs (p ∘ f) := by
  cases mode <;> simp [Decides]

theorem decides_and {α : Type} {xs : List α} {p : α → Prop} {q : Prop} (hne : xs ≠ []) :
    (mode.Decides xs fun x => p x ∧ q) ↔ mode.Decides xs p ∧ q := by
  obtain ⟨x, hx⟩ := List.exists_mem_of_ne_nil xs hne
  cases mode with
  | intersect =>
    constructor
    · intro h
      exact ⟨fun y hy => (h y hy).1, (h x hx).2⟩
    · rintro ⟨h, hq⟩ y hy
      exact ⟨h y hy, hq⟩
  | union =>
    constructor
    · rintro ⟨y, hy, hp, hq⟩
      exact ⟨⟨y, hy, hp⟩, hq⟩
    · rintro ⟨⟨y, hy, hp⟩, hq⟩
      exact ⟨y, hy, hp, hq⟩

theorem mem_merge {c : Cell} (h : c ∈ mode.merge xs ys) : c ∈ xs ∨ c ∈ ys := by
  cases mode with
  | intersect => exact .inl (List.mem_filter.mp ((distinctCells_keeps _).1 h)).1
  | union => exact List.mem_append.mp ((distinctCells_keeps _).1 h)

theorem text_mem_merge {s : String} :
    .text s ∈ mode.merge xs ys ↔ mode.Decides [xs, ys] (.text s ∈ ·) := by
  cases mode with
  | union => simp [merge, text_mem_distinctCells, Decides]
  | intersect =>
    have hany : (ys.any (Cell.text s).same) = true ↔ .text s ∈ ys := by
      simp [List.any_eq_true, Cell.text_same]
    simp [merge, text_mem_distinctCells, Decides, hany]

end Query.CombineMode

namespace Database

def combined (db : Database) (mode : CombineMode) : List Select → Except StoreFault (List Cell)
  | [] => .ok []
  | s :: more => do
    more.foldlM (fun cells s => do pure (mode.merge cells (← db.nestedLoops s)))
      (← db.nestedLoops s)

variable {α : Type} {db : Database} {mode : CombineMode} {xs : List α} {query : α → Select}
  {found : α → List Cell} {cells : List Cell}

theorem foldlM_merge (h : ∀ x ∈ xs, db.nestedLoops (query x) = .ok (found x)) :
    (xs.map query).foldlM (fun cells s => do pure (mode.merge cells (← db.nestedLoops s))) cells =
      .ok (xs.foldl (fun cells x => mode.merge cells (found x)) cells) := by
  induction xs generalizing cells with
  | nil => rfl
  | cons x xs ih =>
    obtain ⟨hx, hxs⟩ := List.forall_mem_cons.mp h
    rw [List.map_cons, List.foldlM_cons, hx]
    exact ih hxs

theorem mem_foldl_merge {c : Cell}
    (h : c ∈ xs.foldl (fun cells x => mode.merge cells (found x)) cells) :
    c ∈ cells ∨ ∃ x ∈ xs, c ∈ found x := by
  induction xs generalizing cells with
  | nil => exact .inl h
  | cons x xs ih =>
    rcases ih h with h | ⟨x', hx', hc⟩
    · rcases CombineMode.mem_merge h with h | h
      · exact .inl h
      · exact .inr ⟨x, List.mem_cons_self, h⟩
    · exact .inr ⟨x', List.mem_cons_of_mem x hx', hc⟩

theorem text_mem_foldl_merge {text : String} :
    .text text ∈ xs.foldl (fun cells x => mode.merge cells (found x)) cells ↔
      mode.Decides (cells :: xs.map found) (.text text ∈ ·) := by
  induction xs generalizing cells with
  | nil => cases mode <;> simp [CombineMode.Decides]
  | cons x xs ih =>
    rw [List.foldl_cons, ih]
    cases mode <;> simp [CombineMode.Decides, CombineMode.text_mem_merge, and_assoc, or_assoc]

variable (mode) in
/-- Statements that have answers have a combined one. Its texts are those of all the answers, or
of any of them. -/
theorem exists_combined (hne : xs ≠ [])
    (h : ∀ x ∈ xs, db.nestedLoops (query x) = .ok (found x)) :
    ∃ cells, db.combined mode (xs.map query) = .ok cells ∧
      (∀ c ∈ cells, ∃ x ∈ xs, c ∈ found x) ∧
      ∀ text, .text text ∈ cells ↔ mode.Decides xs (.text text ∈ found ·) := by
  cases xs with
  | nil => exact absurd rfl hne
  | cons x xs =>
    obtain ⟨hx, hxs⟩ := List.forall_mem_cons.mp h
    refine ⟨xs.foldl (fun cells x => mode.merge cells (found x)) (found x), ?_, ?_, ?_⟩
    · rw [List.map_cons, combined, hx]
      exact foldlM_merge hxs
    · intro c hc
      rcases mem_foldl_merge hc with hc | ⟨x', hx', hc⟩
      · exact ⟨x, List.mem_cons_self, hc⟩
      · exact ⟨x', List.mem_cons_of_mem x hx', hc⟩
    · intro text
      rw [text_mem_foldl_merge, ← List.map_cons, CombineMode.decides_map]
      rfl

end Database

end StockScreen

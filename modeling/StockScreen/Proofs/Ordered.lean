import Mathlib.Data.List.Sort
import StockScreen.Text.Basic

/-! # Ordered lists have no repetition

An arranged list has the elements of the list it is made from, each of them
once and in strict order.
-/

namespace StockScreen

section

variable {α : Type}

theorem eraseRepsBy_loop (r : α → α → Bool) (xs : List α) (a : α) (acc : List α) :
    List.eraseRepsBy.loop r a xs acc = acc.reverse ++ List.eraseRepsBy.loop r a xs [] := by
  induction xs generalizing a acc with
  | nil => simp [List.eraseRepsBy.loop]
  | cons x xs ih =>
    cases hr : r a x with
    | true => simp only [List.eraseRepsBy.loop, hr, ih a acc]
    | false => simp only [List.eraseRepsBy.loop, hr, ih x (a :: acc), ih x [a]]; simp

variable [BEq α] [LawfulBEq α]

theorem eraseReps_cons_cons (a b : α) (xs : List α) :
    (a :: b :: xs).eraseReps =
      if a == b then (b :: xs).eraseReps else a :: (b :: xs).eraseReps := by
  cases hab : a == b with
  | true =>
    obtain rfl := eq_of_beq hab
    simp [List.eraseReps, List.eraseRepsBy, List.eraseRepsBy.loop]
  | false =>
    simp only [List.eraseReps, List.eraseRepsBy, List.eraseRepsBy.loop, hab,
      Bool.false_eq_true, if_false]
    exact eraseRepsBy_loop ..

@[simp] theorem mem_eraseReps {x : α} (xs : List α) : x ∈ xs.eraseReps ↔ x ∈ xs := by
  induction xs with
  | nil => rfl
  | cons a xs ih =>
    cases xs with
    | nil => rfl
    | cons b xs =>
      rw [eraseReps_cons_cons]
      cases hab : a == b with
      | true =>
        obtain rfl := eq_of_beq hab
        simpa using ih
      | false => simp [ih]

theorem pairwise_eraseReps {le : α → α → Prop} (antisymm : ∀ a b, le a b → le b a → a = b)
    {xs : List α} (h : xs.Pairwise le) : xs.eraseReps.Pairwise fun a b => le a b ∧ a ≠ b := by
  induction xs with
  | nil => exact .nil
  | cons a xs ih =>
    cases xs with
    | nil => exact List.pairwise_singleton ..
    | cons b xs =>
      obtain ⟨ha, hb⟩ := List.pairwise_cons.mp h
      rw [eraseReps_cons_cons]
      cases hab : a == b with
      | true => exact ih hb
      | false =>
        refine List.pairwise_cons.mpr ⟨?_, ih hb⟩
        intro x hx
        rw [mem_eraseReps] at hx
        refine ⟨ha x hx, ?_⟩
        rintro rfl
        have hba : le b a := by
          rcases List.mem_cons.mp hx with rfl | hx
          · exact ha a List.mem_cons_self
          · exact (List.pairwise_cons.mp hb).1 a hx
        simp [antisymm a b (ha b List.mem_cons_self) hba] at hab

theorem eraseReps_of_nodup {xs : List α} (h : xs.Nodup) : xs.eraseReps = xs := by
  induction xs with
  | nil => rfl
  | cons a xs ih =>
    cases xs with
    | nil => rfl
    | cons b xs =>
      obtain ⟨ha, hxs⟩ := List.nodup_cons.mp h
      have hab : (a == b) = false := beq_false_of_ne fun hab => ha (hab ▸ List.mem_cons_self)
      rw [eraseReps_cons_cons, hab, ih hxs]
      rfl

variable (le : α → α → Bool) (trans : ∀ a b c, le a b → le b c → le a c)
  (total : ∀ a b, le a b || le b a) (antisymm : ∀ a b, le a b → le b a → a = b)

@[simp] theorem mem_arrange {x : α} (xs : List α) : x ∈ arrange le xs ↔ x ∈ xs := by
  simp [arrange]

theorem arrange_of_pairwise {xs : List α} (h : xs.Pairwise fun a b => le a b ∧ a ≠ b) :
    arrange le xs = xs := by
  rw [arrange, List.mergeSort_of_pairwise (h.imp And.left), eraseReps_of_nodup (h.imp And.right)]

include trans total antisymm in
theorem pairwise_arrange (xs : List α) :
    (arrange le xs).Pairwise fun a b => le a b ∧ a ≠ b :=
  pairwise_eraseReps antisymm (List.pairwise_mergeSort trans total xs)

include trans total antisymm in
theorem arrange_congr {xs ys : List α} (h : ∀ x, x ∈ xs ↔ x ∈ ys) :
    arrange le xs = arrange le ys := by
  have : Std.Irrefl fun a b : α => le a b = true ∧ a ≠ b := ⟨fun _ h => h.2 rfl⟩
  have : Std.Antisymm fun a b : α => le a b = true ∧ a ≠ b :=
    ⟨fun a b hab hba => antisymm a b hab.1 hba.1⟩
  refine (pairwise_arrange le trans total antisymm xs).eq_of_mem_iff
    (pairwise_arrange le trans total antisymm ys) fun x => ?_
  rw [mem_arrange, mem_arrange, h]

include trans total antisymm in
theorem nodup_arrange (xs : List α) : (arrange le xs).Nodup :=
  (pairwise_arrange le trans total antisymm xs).imp And.right

end

@[simp] theorem mem_ascending {x : String} (xs : List String) : x ∈ ascending xs ↔ x ∈ xs :=
  mem_arrange _ xs

theorem decide_le_trans (a b c : String) (hab : decide (a ≤ b)) (hbc : decide (b ≤ c)) :
    decide (a ≤ c) :=
  decide_eq_true (String.le_trans (of_decide_eq_true hab) (of_decide_eq_true hbc))

theorem decide_le_total (a b : String) : decide (a ≤ b) || decide (b ≤ a) := by
  simpa using String.le_total a b

theorem decide_le_antisymm (a b : String) (hab : decide (a ≤ b)) (hba : decide (b ≤ a)) : a = b :=
  String.le_antisymm (of_decide_eq_true hab) (of_decide_eq_true hba)

theorem pairwise_ascending (xs : List String) : (ascending xs).Pairwise (· < ·) :=
  (pairwise_arrange _ decide_le_trans decide_le_total decide_le_antisymm xs).imp
    fun ⟨hab, hne⟩ => Std.lt_of_le_of_ne (of_decide_eq_true hab) hne

theorem ascending_congr {xs ys : List String} (h : ∀ x, x ∈ xs ↔ x ∈ ys) :
    ascending xs = ascending ys :=
  arrange_congr _ decide_le_trans decide_le_total decide_le_antisymm h

theorem find?_ascending_eq_some_iff {p : String → Bool} {xs : List String} {x : String} :
    (ascending xs).find? p = some x ↔ x ∈ xs ∧ p x ∧ ∀ y ∈ xs, p y → x ≤ y := by
  have hleast : ∀ {y}, (ascending xs).find? p = some y → ∀ z ∈ xs, p z → y ≤ z := by
    intro y hy z hz hp
    obtain ⟨-, before, after, hsplit, hbefore⟩ := List.find?_eq_some_iff_append.mp hy
    have hsorted := pairwise_ascending xs
    rw [← mem_ascending] at hz
    rw [hsplit] at hz hsorted
    rcases List.mem_append.mp hz with hz | hz
    · exact absurd hp (by simpa using hbefore z hz)
    · rcases List.mem_cons.mp hz with rfl | hz
      · exact String.le_refl _
      · obtain ⟨-, hafter, -⟩ := List.pairwise_append.mp hsorted
        exact Std.le_of_lt ((List.pairwise_cons.mp hafter).1 z hz)
  constructor
  · intro h
    exact ⟨(mem_ascending xs).mp (List.mem_of_find?_eq_some h), List.find?_some h, hleast h⟩
  · rintro ⟨hx, hp, hle⟩
    cases hf : (ascending xs).find? p with
    | none => exact absurd hp (List.find?_eq_none.mp hf x ((mem_ascending xs).mpr hx))
    | some y =>
      have hy : y ∈ xs := (mem_ascending xs).mp (List.mem_of_find?_eq_some hf)
      have hxy : x ≤ y := hle y hy (List.find?_some hf)
      rw [String.le_antisymm hxy (hleast hf x hx hp)]

@[simp] theorem mem_descending {x : String} (xs : List String) : x ∈ descending xs ↔ x ∈ xs :=
  mem_arrange _ xs

theorem pairwise_descending (xs : List String) : (descending xs).Pairwise (· > ·) :=
  (pairwise_arrange _ (fun a b c hab hbc => decide_le_trans c b a hbc hab)
    (fun a b => decide_le_total b a) (fun a b hab hba => decide_le_antisymm a b hba hab) xs).imp
    fun ⟨hab, hne⟩ => Std.lt_of_le_of_ne (of_decide_eq_true hab) hne.symm

theorem descending_of_pairwise {xs : List String} (h : xs.Pairwise (· > ·)) :
    descending xs = xs :=
  arrange_of_pairwise _ <| h.imp fun hab =>
    ⟨decide_eq_true (Std.le_of_lt hab), (Std.ne_of_lt hab).symm⟩

theorem nodup_ascending (xs : List String) : (ascending xs).Nodup :=
  (pairwise_ascending xs).imp fun h => Std.ne_of_lt h

end StockScreen

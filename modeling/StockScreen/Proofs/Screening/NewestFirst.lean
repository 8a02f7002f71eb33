import Mathlib.Data.String.Basic
import StockScreen.Proofs.Screening.Offsets
import StockScreen.Proofs.Text.ByteOrder

/-! # Windows of given dates

A window has each of the given dates at one offset and no other dates, the newest
first. It depends on nothing but the set of the dates.
-/

namespace StockScreen.Window

open Utf8 (bytes bytes_lt_bytes_iff)

/-- The texts descend strictly, compared by their bytes. -/
def NewestFirst (dates : List String) : Prop := dates.Pairwise fun x y => bytes y < bytes x

variable {dates dates' ds : List String} {w : Window} {i j : Nat} {x y : String}

theorem newestFirst_iff : NewestFirst ds ↔ ds.Pairwise (· > ·) := by
  simp only [NewestFirst, bytes_lt_bytes_iff, gt_iff_lt]

theorem dates_ofDates_eq_iff :
    (ofDates dates).dates = ds ↔ NewestFirst ds ∧ ∀ x, x ∈ ds ↔ x ∈ dates := by
  rw [newestFirst_iff]
  constructor
  · rintro rfl
    exact ⟨pairwise_descending dates, fun _ => mem_descending dates⟩
  · rintro ⟨hds, hmem⟩
    refine (pairwise_descending dates).eq_of_mem_iff hds fun x => ?_
    rw [mem_descending, hmem]

theorem newestFirst_ofDates (dates : List String) : NewestFirst (ofDates dates).dates :=
  (dates_ofDates_eq_iff.mp rfl).1

theorem mem_dates_ofDates : x ∈ (ofDates dates).dates ↔ x ∈ dates :=
  (dates_ofDates_eq_iff.mp rfl).2 x

theorem ofDates_eq_ofDates_iff :
    ofDates dates = ofDates dates' ↔ ∀ x, x ∈ dates ↔ x ∈ dates' := by
  constructor
  · intro h x
    rw [← mem_dates_ofDates, h, mem_dates_ofDates]
  · intro h
    have hmem : ∀ x, x ∈ (ofDates dates').dates ↔ x ∈ dates := fun x =>
      mem_dates_ofDates.trans (h x).symm
    exact congrArg Window.mk (dates_ofDates_eq_iff.mpr ⟨newestFirst_ofDates dates', hmem⟩)

theorem NewestFirst.bytes_lt (h : NewestFirst w.dates) (hij : i < j) (hx : w.dateAt? i = some x)
    (hy : w.dateAt? j = some y) : bytes y < bytes x := by
  obtain ⟨hi, rfl⟩ := List.getElem?_eq_some_iff.mp hx
  obtain ⟨hj, rfl⟩ := List.getElem?_eq_some_iff.mp hy
  exact List.pairwise_iff_getElem.mp h i j hi hj hij

theorem NewestFirst.lt_iff (h : NewestFirst w.dates) (hx : w.dateAt? i = some x)
    (hy : w.dateAt? j = some y) : i < j ↔ bytes y < bytes x := by
  refine ⟨fun hij => h.bytes_lt hij hx hy, fun hlt => ?_⟩
  rcases Nat.lt_trichotomy i j with hij | rfl | hji
  · exact hij
  · obtain rfl : x = y := Option.some_inj.mp (hx.symm.trans hy)
    exact absurd hlt (List.lt_irrefl _)
  · exact absurd hlt (List.lt_asymm (h.bytes_lt hji hy hx))

/-- A given date has one offset, the number of distinct dates greater than it. -/
theorem existsUnique_dateAt?_iff : (∃! k, (ofDates dates).dateAt? k = some x) ↔ x ∈ dates := by
  simp only [dateAt?_ofDates, RankedAt]
  constructor
  · rintro ⟨_, ⟨hx, -⟩, -⟩
    exact hx
  · intro hx
    exact ⟨_, ⟨hx, rfl⟩, fun _ h => h.2.symm⟩

/-- What a window made of the dates has at its offsets. -/
structure Arranges (dates : List String) (w : Window) : Prop where
  newestFirst : NewestFirst w.dates
  /-- No date is lost and none is added. -/
  mem_iff : ∀ x, x ∈ w.dates ↔ x ∈ dates
  /-- The order and the repetitions of the dates do not matter. -/
  same : ∀ dates', ofDates dates' = w ↔ ∀ x, x ∈ dates' ↔ x ∈ dates
  again : ofDates w.dates = w
  later : ∀ i j x y, w.dateAt? i = some x → w.dateAt? j = some y → (i < j ↔ bytes y < bytes x)
  beyond : ∀ k, w.dateAt? k = none ↔ w.dates.length ≤ k
  /-- Each of the dates has one offset, and no other text has. -/
  offset : ∀ x, (∃! k, w.dateAt? k = some x) ↔ x ∈ dates

/-- The window of a list of dates is the set of these dates in descending order. -/
theorem ofDates_arranges (dates : List String) : Arranges dates (ofDates dates) where
  newestFirst := newestFirst_ofDates dates
  mem_iff _ := mem_dates_ofDates
  same _ := ofDates_eq_ofDates_iff
  again := ofDates_eq_ofDates_iff.mpr fun _ => mem_dates_ofDates
  later _ _ _ _ := (newestFirst_ofDates dates).lt_iff
  beyond _ := List.getElem?_eq_none_iff
  offset _ := existsUnique_dateAt?_iff

/-- A date that is repeated, and two texts whose 16-bit units are in the other order. -/
theorem unusual_dates_are_arranged :
    let w := ofDates ["2024-01-05", "～", "😀", "2024-01-05"]
    ofDates ["😀", "2024-01-05", "～"] = w ∧ w.dateAt? 0 = some "😀" ∧ w.dateAt? 1 = some "～" ∧
      bytes "～" < bytes "😀" ∧ w.dateAt? 3 = none ∧ ∃! k, w.dateAt? k = some "2024-01-05" := by
  intro w
  obtain ⟨-, -, hsame, -, hlater, hbeyond, hoffset⟩ :=
    ofDates_arranges ["2024-01-05", "～", "😀", "2024-01-05"]
  have hdates : w.dates = ["😀", "～", "2024-01-05"] := by
    refine dates_ofDates_eq_iff.mpr ⟨newestFirst_iff.mpr (by decide +kernel), fun x => ?_⟩
    simp only [List.mem_cons, List.not_mem_nil, or_false]
    tauto
  have hfirst : w.dateAt? 0 = some "😀" := congrArg (·[0]?) hdates
  have hsecond : w.dateAt? 1 = some "～" := congrArg (·[1]?) hdates
  refine ⟨(hsame _).mpr fun x => ?_, hfirst, hsecond, ?_, ?_, (hoffset _).mpr List.mem_cons_self⟩
  · simp only [List.mem_cons, List.not_mem_nil, or_false]
    tauto
  · exact (hlater 0 1 _ _ hfirst hsecond).mp Nat.zero_lt_one
  · exact (hbeyond 3).mpr (congrArg List.length hdates).le

end StockScreen.Window

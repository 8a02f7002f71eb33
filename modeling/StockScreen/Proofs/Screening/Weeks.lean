import Mathlib.Data.List.Chain
import Mathlib.Tactic.Ring
import StockScreen.Window

/-! # Dates picked for weeks

A pick goes through candidates once and keeps each date that lies far enough
before the last one kept. The dates kept are spaced by the gap, a date left
out lies too close to the last one kept ahead of it, and from candidates in
order no longer choice with such gaps can be made. Room for the dates is made
beforehand, which ends the program when there are to be too many.
-/

namespace StockScreen

/-- The most texts for which room can be made at once. -/
def greatestCount : Nat := greatestRoom / textBytes

namespace Weeks

def day? (text : String) : Option Int :=
  (Calendar.Date.read? (Text.trim text)).map Calendar.Date.dayNumber

def readable (candidates : List String) : List String :=
  candidates.filter fun text => (day? text).isSome

/-- Both texts name days, the first one at least `n` days after the second. -/
def LaterBy (n : Int) (x y : String) : Prop :=
  ∃ a b, day? x = some a ∧ day? y = some b ∧ n ≤ a - b

/-- Both texts name days, at least `n` days apart. -/
def Apart (n : Int) (x y : String) : Prop :=
  ∃ a b, day? x = some a ∧ day? y = some b ∧ n ≤ (a - b).natAbs

/-- Candidates, each with a mark that tells whether it is kept. -/
abbrev Marked := List (String × Bool)

def Marked.kept (marked : Marked) : List String := (marked.filter Prod.snd).map Prod.fst

/-- How the dates kept lie among the candidates. -/
structure Selects (gap : Int) (count : Nat) (candidates kept : List String) : Prop where
  sublist : kept.Sublist (readable candidates)
  length_le : kept.length ≤ count
  spaced : ∀ i j (hij : i < j) (hj : j < kept.length),
    LaterBy (((j : Int) - i) * gap) kept[i] kept[j]
  descending : 1 ≤ gap → kept.Pairwise (LaterBy 1)
  /-- Until enough dates are kept, one is left out only for the last one kept ahead of it. -/
  skipped : ∃ marked : Marked, marked.map Prod.fst = candidates ∧ marked.kept = kept ∧
    ∀ before text after b, marked = before ++ (text, false) :: after → day? text = some b →
      (Marked.kept before).length < count →
        ∃ last a, (Marked.kept before).getLast? = some last ∧ day? last = some a ∧ a - b < gap
  longest : (readable candidates).Pairwise (LaterBy 0) → kept.length = count ∨
    ∀ other : List String, other.Sublist (readable candidates) → other.IsChain (Apart gap) →
      other.length ≤ kept.length

variable {gap m n : Int} {last : Option Calendar.Date} {date later : Calendar.Date} {count : Nat}
  {candidates : List String} {text x y z : String}

theorem day?_of_read? (h : Calendar.Date.read? (Text.trim text) = some date) :
    day? text = some date.dayNumber := by
  rw [day?, h]
  rfl

theorem LaterBy.add (h : LaterBy m x y) (h' : LaterBy n y z) : LaterBy (m + n) x z := by
  obtain ⟨a, b, ha, hb, hab⟩ := h
  obtain ⟨b', c, hb', hc, hbc⟩ := h'
  cases hb.symm.trans hb'
  exact ⟨a, c, ha, hc, by omega⟩

theorem LaterBy.mono (h : LaterBy n x y) (hm : m ≤ n) : LaterBy m x y := by
  obtain ⟨a, b, ha, hb, hab⟩ := h
  exact ⟨a, b, ha, hb, by omega⟩

theorem Apart.laterBy (h : Apart n x y) (h' : LaterBy 0 x y) : LaterBy n x y := by
  obtain ⟨a, b, ha, hb, hab⟩ := h
  obtain ⟨a', b', ha', hb', hle⟩ := h'
  cases ha.symm.trans ha'
  cases hb.symm.trans hb'
  exact ⟨a, b, ha, hb, by omega⟩

instance (n : Int) (x y : String) : Decidable (LaterBy n x y) :=
  decidable_of_iff (((day? x).bind fun a => (day? y).map fun b => a - b).any (n ≤ ·)) <| by
    cases hx : day? x <;> cases hy : day? y <;> simp [LaterBy, hx, hy]

theorem readable_cons_of_none (h : Calendar.Date.read? (Text.trim text) = none) :
    readable (text :: candidates) = readable candidates :=
  List.filter_cons_of_neg (by simp [day?, h])

theorem readable_cons_of_some (h : Calendar.Date.read? (Text.trim text) = some date) :
    readable (text :: candidates) = text :: readable candidates :=
  List.filter_cons_of_pos (by simp [day?, h])

def Follows (gap : Int) (last : Option Calendar.Date) (text : String) : Prop :=
  ∀ later, last = some later → ∃ b, day? text = some b ∧ gap ≤ later.dayNumber - b

theorem farEnough_some :
    farEnough gap (some later) date = true ↔ gap ≤ later.dayNumber - date.dayNumber :=
  decide_eq_true_iff

theorem farEnough_iff (h : Calendar.Date.read? (Text.trim text) = some date) :
    farEnough gap last date = true ↔ Follows gap last text := by
  cases last with
  | none => simp [farEnough, Follows]
  | some later => simp [farEnough_some, Follows, day?_of_read? h]

theorem Follows.laterBy (h : Calendar.Date.read? (Text.trim x) = some date)
    (hy : Follows gap (some date) y) : LaterBy gap x y := by
  obtain ⟨b, hb, hle⟩ := hy date rfl
  exact ⟨_, b, day?_of_read? h, hb, hle⟩

theorem LaterBy.follows (h : Calendar.Date.read? (Text.trim x) = some date)
    (hxy : LaterBy gap x y) : Follows gap (some date) y := by
  obtain ⟨a, b, ha, hb, hab⟩ := hxy
  cases (day?_of_read? h).symm.trans ha
  rintro _ ⟨⟩
  exact ⟨b, hb, hab⟩

/-! ## What is kept -/

theorem sublist_pickAfter (gap : Int) (last : Option Calendar.Date) (count : Nat)
    (candidates : List String) :
    (pickAfter gap last count candidates).kept.Sublist (readable candidates) := by
  fun_induction pickAfter gap last count candidates with
  | case1 => exact List.nil_sublist _
  | case2 => exact List.nil_sublist _
  | case3 last count text texts hread ih =>
    rw [readable_cons_of_none hread]
    exact ih
  | case4 last count text texts date hread hfar ih =>
    rw [readable_cons_of_some hread]
    exact ih.cons_cons text
  | case5 last count text texts date hread hnear ih =>
    rw [readable_cons_of_some hread]
    exact ih.cons text

theorem length_pickAfter_le (gap : Int) (last : Option Calendar.Date) (count : Nat)
    (candidates : List String) : (pickAfter gap last count candidates).kept.length ≤ count := by
  fun_induction pickAfter gap last count candidates with
  | case1 => exact Nat.le_refl 0
  | case2 => exact Nat.zero_le _
  | case3 last count text texts hread ih => exact ih
  | case4 last count text texts date hread hfar ih => exact Nat.succ_le_succ ih
  | case5 last count text texts date hread hnear ih => exact ih

/-- Each date kept follows the one kept before it, and the first one follows the last date. -/
theorem isChain_pickAfter (gap : Int) (last : Option Calendar.Date) (count : Nat)
    (candidates : List String) :
    (pickAfter gap last count candidates).kept.IsChain (LaterBy gap) ∧
      ∀ x ∈ (pickAfter gap last count candidates).kept.head?, Follows gap last x := by
  fun_induction pickAfter gap last count candidates with
  | case1 => exact ⟨.nil, nofun⟩
  | case2 => exact ⟨.nil, nofun⟩
  | case3 last count text texts hread ih => exact ih
  | case4 last count text texts date hread hfar ih =>
    refine ⟨List.isChain_cons.mpr ⟨fun y hy => (ih.2 y hy).laterBy hread, ih.1⟩, ?_⟩
    rintro _ ⟨⟩
    exact (farEnough_iff hread).mp hfar
  | case5 last count text texts date hread hnear ih => exact ih

theorem laterBy_of_isChain {kept : List String} (h : kept.IsChain (LaterBy gap)) {i j : Nat}
    (hij : i < j) (hj : j < kept.length) : LaterBy (((j : Int) - i) * gap) kept[i] kept[j] := by
  induction j, hij using Nat.le_induction with
  | base =>
    refine (List.isChain_iff_getElem.mp h i hj).mono (le_of_eq ?_)
    push_cast
    ring
  | succ j hij ih =>
    refine ((ih (by omega)).add (List.isChain_iff_getElem.mp h j hj)).mono (le_of_eq ?_)
    push_cast
    ring

theorem pairwise_of_isChain {kept : List String} (hgap : 0 ≤ gap) (h : kept.IsChain (LaterBy gap)) :
    kept.Pairwise (LaterBy gap) := by
  refine List.pairwise_iff_getElem.mpr fun i j _ hj hij => ?_
  refine (laterBy_of_isChain h hij hj).mono ?_
  calc gap = 1 * gap := (Int.one_mul gap).symm
    _ ≤ ((j : Int) - i) * gap := Int.mul_le_mul_of_nonneg_right (by omega) hgap

/-! ## What is left out -/

@[simp] theorem Marked.kept_cons_true (text : String) (marked : Marked) :
    Marked.kept ((text, true) :: marked) = text :: marked.kept := rfl

@[simp] theorem Marked.kept_cons_false (text : String) (marked : Marked) :
    Marked.kept ((text, false) :: marked) = marked.kept := rfl

/-- The date of the last text kept, or the one before all of them. -/
def lastOf (last : Option Calendar.Date) (kept : List String) : Option Calendar.Date :=
  (kept.getLast?.map fun text => Calendar.Date.read? (Text.trim text)).getD last

theorem lastOf_cons (last : Option Calendar.Date) (text : String) (kept : List String) :
    lastOf last (text :: kept) = lastOf (Calendar.Date.read? (Text.trim text)) kept := by
  rw [lastOf, lastOf, List.getLast?_cons]
  cases kept.getLast? <;> rfl

theorem exists_of_lastOf_none {kept : List String} (h : lastOf none kept = some later) :
    ∃ text, kept.getLast? = some text ∧ day? text = some later.dayNumber := by
  cases hlast : kept.getLast? with
  | none => simp [lastOf, hlast] at h
  | some text =>
    rw [lastOf, hlast] at h
    exact ⟨text, rfl, day?_of_read? h⟩

/-- Until enough dates are kept, one is left out only for the last one kept ahead of it. -/
theorem exists_marked (gap : Int) (last : Option Calendar.Date) (count : Nat)
    (candidates : List String) :
    ∃ marked : Marked, marked.map Prod.fst = candidates ∧
      marked.kept = (pickAfter gap last count candidates).kept ∧
      ∀ before text after b, marked = before ++ (text, false) :: after → day? text = some b →
        (Marked.kept before).length < count →
          ∃ later, lastOf last (Marked.kept before) = some later ∧ later.dayNumber - b < gap := by
  fun_induction pickAfter gap last count candidates with
  | case1 candidates last =>
    refine ⟨candidates.map (·, false), by simp [Function.comp_def], by simp [Marked.kept], ?_⟩
    intro before text after b _ _ hlt
    exact absurd hlt (Nat.not_lt_zero _)
  | case2 last count =>
    refine ⟨[], rfl, rfl, ?_⟩
    intro before text after b hsplit
    simp at hsplit
  | case3 last count text texts hread ih =>
    obtain ⟨marked, rfl, hkept, hskip⟩ := ih
    refine ⟨(text, false) :: marked, rfl, hkept, ?_⟩
    intro before text' after b hsplit hb hlt
    rcases List.cons_eq_append_iff.mp hsplit with ⟨rfl, heq⟩ | ⟨before, rfl, heq⟩
    · cases heq
      simp [day?, hread] at hb
    · exact hskip before text' after b heq hb hlt
  | case4 last count text texts date hread hfar ih =>
    obtain ⟨marked, rfl, hkept, hskip⟩ := ih
    refine ⟨(text, true) :: marked, rfl, congrArg (List.cons text) hkept, ?_⟩
    intro before text' after b hsplit hb hlt
    rcases List.cons_eq_append_iff.mp hsplit with ⟨rfl, heq⟩ | ⟨before, rfl, heq⟩
    · cases heq
    · rw [Marked.kept_cons_true, lastOf_cons, hread]
      exact hskip before text' after b heq hb (Nat.lt_of_succ_lt_succ hlt)
  | case5 last count text texts date hread hnear ih =>
    obtain ⟨marked, rfl, hkept, hskip⟩ := ih
    refine ⟨(text, false) :: marked, rfl, hkept, ?_⟩
    intro before text' after b hsplit hb hlt
    rcases List.cons_eq_append_iff.mp hsplit with ⟨rfl, heq⟩ | ⟨before, rfl, heq⟩
    · cases heq
      cases (day?_of_read? hread).symm.trans hb
      cases last with
      | none => exact absurd rfl hnear
      | some later => exact ⟨later, rfl, not_le.mp (mt farEnough_some.mpr hnear)⟩
    · exact hskip before text' after b heq hb hlt

/-! ## How many are kept -/

/-- From dates in order the pick is as long as any choice with such gaps, up to the count. The first
date of the choice is not later than the date that the pick keeps in its place. -/
theorem min_length_le (gap : Int) (last : Option Calendar.Date) (count : Nat)
    (candidates : List String) {other : List String}
    (hdesc : (readable candidates).Pairwise (LaterBy 0))
    (hsub : other.Sublist (readable candidates)) (hchain : other.IsChain (LaterBy gap))
    (hhead : ∀ x ∈ other.head?, Follows gap last x) :
    min count other.length ≤ (pickAfter gap last count candidates).kept.length := by
  fun_induction pickAfter gap last count candidates generalizing other with
  | case1 => simp
  | case2 => simp [List.sublist_nil.mp hsub]
  | case3 last count text texts hread ih =>
    rw [readable_cons_of_none hread] at hdesc hsub
    exact ih hdesc hsub hchain hhead
  | case4 last count text texts date hread hfar ih =>
    rw [readable_cons_of_some hread] at hdesc hsub
    obtain ⟨hlater, hdesc⟩ := List.pairwise_cons.mp hdesc
    cases other with
    | nil => simp
    | cons x rest =>
      obtain ⟨hnext, hchain⟩ := List.isChain_cons.mp hchain
      -- The choice begins here or with a later candidate, so its rest keeps the gap to this date.
      have hfollows : ∀ y ∈ rest.head?, Follows gap (some date) y := by
        intro y hy
        refine LaterBy.follows hread ?_
        rcases List.mem_cons.mp (hsub.subset List.mem_cons_self) with rfl | hx
        · exact hnext y hy
        · exact ((hlater x hx).add (hnext y hy)).mono (by omega)
      have hle := ih hdesc hsub.tail hchain hfollows
      simp only [keep, List.length_cons, List.tail_cons] at hle ⊢
      omega
  | case5 last count text texts date hread hnear ih =>
    rw [readable_cons_of_some hread] at hdesc hsub
    rcases List.sublist_cons_iff.mp hsub with hsub | ⟨rest, rfl, -⟩
    · exact ih (List.pairwise_cons.mp hdesc).2 hsub hchain hhead
    · exact absurd ((farEnough_iff hread).mpr (hhead text rfl)) hnear

theorem isChain_laterBy {other : List String} (hdesc : other.Pairwise (LaterBy 0))
    (h : other.IsChain (Apart gap)) : other.IsChain (LaterBy gap) := by
  induction other with
  | nil => exact .nil
  | cons x rest ih =>
    obtain ⟨hx, hrest⟩ := List.pairwise_cons.mp hdesc
    obtain ⟨hnext, hchain⟩ := List.isChain_cons.mp h
    refine List.isChain_cons.mpr ⟨fun y hy => ?_, ih hrest hchain⟩
    exact (hnext y hy).laterBy (hx y (List.mem_of_mem_head? hy))

theorem pick_selects (gap : Int) (count : Nat) (candidates : List String) :
    Selects gap count candidates (pick gap count candidates).kept where
  sublist := sublist_pickAfter gap none count candidates
  length_le := length_pickAfter_le gap none count candidates
  spaced := by
    intro i j hij hj
    exact laterBy_of_isChain (isChain_pickAfter gap none count candidates).1 hij hj
  descending := by
    intro hgap
    refine List.pairwise_iff_getElem.mpr fun i j _ hj hij => ?_
    refine (laterBy_of_isChain (isChain_pickAfter gap none count candidates).1 hij hj).mono ?_
    exact Int.mul_pos (by omega) hgap
  skipped := by
    obtain ⟨marked, hmap, hkept, hskip⟩ := exists_marked gap none count candidates
    refine ⟨marked, hmap, hkept, fun before text after b hsplit hb hlt => ?_⟩
    obtain ⟨later, hlast, hnear⟩ := hskip before text after b hsplit hb hlt
    obtain ⟨last, hgetLast, hday⟩ := exists_of_lastOf_none hlast
    exact ⟨last, later.dayNumber, hgetLast, hday, hnear⟩
  longest := by
    intro hdesc
    have hle := length_pickAfter_le gap none count candidates
    by_cases hfull : (pick gap count candidates).kept.length = count
    · exact .inl hfull
    · refine .inr fun other hsub hchain => ?_
      have hlen := min_length_le gap none count candidates hdesc hsub
        (isChain_laterBy (hdesc.sublist hsub) hchain) (fun _ _ => nofun)
      rw [pick] at hfull ⊢
      omega

/-! ## Room for what is kept -/

theorem room_iff : textBytes * count ≤ greatestRoom ↔ count ≤ greatestCount := by
  rw [greatestCount, Nat.mul_comm, Nat.le_div_iff_mul_le (by decide)]

theorem select?_of_room (h : count ≤ greatestCount) (gap : Int) (candidates : List String) :
    select? gap count candidates = some (pick gap count candidates) :=
  if_pos (room_iff.mpr h)

theorem select?_of_no_room (h : greatestCount < count) (gap : Int) (candidates : List String) :
    select? gap count candidates = none :=
  if_neg (mt room_iff.mp (Nat.not_le.mpr h))

/-- With room for as many texts as are to be kept, a selection has a result, with what it keeps and
what it leaves out, and no choice is longer. Without it there is none, whatever the candidates
are. -/
theorem select?_selects (gap : Int) (count : Nat) (candidates : List String) :
    (count ≤ greatestCount → ∃ weeks, select? gap count candidates = some weeks ∧
      Selects gap count candidates weeks.kept) ∧
    (greatestCount < count → select? gap count candidates = none) :=
  ⟨fun h => ⟨_, select?_of_room h gap candidates, pick_selects gap count candidates⟩,
    fun h => select?_of_no_room h gap candidates⟩

theorem select?_greatest_count :
    select? 6 384307168202282325 ["2024-01-10", "2024-01-9", "soon", "2024-01-04"] =
        some ⟨["2024-01-10", "2024-01-04"], ["soon"]⟩ ∧
      Selects 6 384307168202282325 ["2024-01-10", "2024-01-9", "soon", "2024-01-04"]
        ["2024-01-10", "2024-01-04"] := by
  have hselect : select? 6 384307168202282325
      ["2024-01-10", "2024-01-9", "soon", "2024-01-04"] =
        some ⟨["2024-01-10", "2024-01-04"], ["soon"]⟩ := by
    decide +kernel
  obtain ⟨weeks, hweeks, hselects⟩ := (select?_selects 6 384307168202282325
    ["2024-01-10", "2024-01-9", "soon", "2024-01-04"]).1 (by decide)
  cases hselect.symm.trans hweeks
  exact ⟨hselect, hselects⟩

/-- A count that settings may have, and for which there is no room, though one date is enough. -/
theorem select?_greatest_integer :
    select? 6 9223372036854775807 ["2024-01-10"] = none ∧
      ¬ ∃ weeks, select? 6 9223372036854775807 ["2024-01-10"] = some weeks ∧
        Selects 6 9223372036854775807 ["2024-01-10"] weeks.kept := by
  have hnone : select? 6 9223372036854775807 ["2024-01-10"] = none :=
    select?_of_no_room (by decide) 6 _
  refine ⟨hnone, ?_⟩
  rintro ⟨weeks, hweeks, -⟩
  cases hnone.symm.trans hweeks

end Weeks

end StockScreen

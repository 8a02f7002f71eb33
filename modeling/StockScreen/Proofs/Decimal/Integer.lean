import StockScreen.Decimal.Format
import StockScreen.Decimal.Reader

/-! # Integers in decimal digits

An integer is spelled by digits with an optional sign before them, of any
number. The reader of 64 bits reads what is spelled if it fits.
-/

namespace StockScreen.Decimal

/-- One or more digits with the value `n`. -/
structure IsNumeral (ds : List Char) (n : Nat) : Prop where
  ne_nil : ds ≠ []
  digits : ∀ d ∈ ds, d.isDigit
  value : Nat.ofDigitChars 10 ds 0 = n

/-- Digits with an optional sign before them. -/
inductive Spells : List Char → Int → Prop
  | unsigned {ds : List Char} {n : Nat} (h : IsNumeral ds n) : Spells ds n
  | plus {ds : List Char} {n : Nat} (h : IsNumeral ds n) : Spells ('+' :: ds) n
  | minus {ds : List Char} {n : Nat} (h : IsNumeral ds n) : Spells ('-' :: ds) (-n)

def FitsInt64 (n : Int) : Prop := -0x8000000000000000 ≤ n ∧ n < 0x8000000000000000

variable {cs : List Char} {s : String}

theorem digitsValue_eq (start : Nat) (ds : List Char) :
    digitsValue start ds = Nat.ofDigitChars 10 ds start := by
  simp only [digitsValue, Nat.ofDigitChars, Nat.mul_comm]

theorem readNat?_eq_some_iff {n : Nat} : readNat? cs = some n ↔ IsNumeral cs n := by
  unfold readNat?
  split
  · next h =>
    rw [Option.some.injEq, digitsValue_eq]
    exact ⟨fun hn => ⟨h.1, List.all_eq_true.mp h.2, hn⟩, IsNumeral.value⟩
  · next h => exact iff_of_false nofun fun hn => h ⟨hn.ne_nil, List.all_eq_true.mpr hn.digits⟩

theorem takeSign_cases (cs : List Char) :
    (∃ ds, cs = '-' :: ds ∧ takeSign cs = (true, ds)) ∨
      (∃ ds, cs = '+' :: ds ∧ takeSign cs = (false, ds)) ∨ takeSign cs = (false, cs) := by
  unfold takeSign
  split
  · exact .inl ⟨_, rfl, rfl⟩
  · exact .inr (.inl ⟨_, rfl, rfl⟩)
  · exact .inr (.inr rfl)

theorem IsNumeral.takeSign_eq {ds : List Char} {n : Nat} (h : IsNumeral ds n) :
    takeSign ds = (false, ds) := by
  rcases takeSign_cases ds with ⟨rest, rfl, -⟩ | ⟨rest, rfl, -⟩ | hsign
  · cases h.digits '-' List.mem_cons_self
  · cases h.digits '+' List.mem_cons_self
  · exact hsign

theorem readInt?_of_takeSign {ds : List Char} {negative : Bool}
    (h : takeSign cs = (negative, ds)) :
    readInt? cs = (readNat? ds).map fun n : Nat => if negative then -(n : Int) else n := by
  simp only [readInt?, h]
  cases readNat? ds <;> rfl

theorem readInt?_eq_some_iff {n : Int} : readInt? cs = some n ↔ Spells cs n := by
  constructor
  · intro h
    rcases takeSign_cases cs with ⟨ds, rfl, hsign⟩ | ⟨ds, rfl, hsign⟩ | hsign <;>
      rw [readInt?_of_takeSign hsign] at h <;>
      obtain ⟨m, hm, rfl⟩ := Option.map_eq_some_iff.mp h
    · exact .minus (readNat?_eq_some_iff.mp hm)
    · exact .plus (readNat?_eq_some_iff.mp hm)
    · exact .unsigned (readNat?_eq_some_iff.mp hm)
  · intro h
    cases h with
    | unsigned h =>
      rw [readInt?_of_takeSign h.takeSign_eq, readNat?_eq_some_iff.mpr h]
      rfl
    | @plus ds _ h =>
      have hsign : takeSign ('+' :: ds) = (false, ds) := rfl
      rw [readInt?_of_takeSign hsign, readNat?_eq_some_iff.mpr h]
      rfl
    | @minus ds _ h =>
      have hsign : takeSign ('-' :: ds) = (true, ds) := rfl
      rw [readInt?_of_takeSign hsign, readNat?_eq_some_iff.mpr h]
      rfl

theorem readInt64?_eq_some_iff {n : Int} :
    readInt64? s = some n ↔ Spells s.toList n ∧ FitsInt64 n := by
  have hfits : ∀ m : Int, -(Nat.pow 2 63 : Int) ≤ m ∧ m < Nat.pow 2 63 ↔ FitsInt64 m :=
    fun _ => Iff.rfl
  rw [← readInt?_eq_some_iff]
  unfold readInt64?
  cases hread : readInt? s.toList with
  | none => exact iff_of_false nofun nofun
  | some m =>
    simp only [hfits, Option.ite_none_right_eq_some, Option.some.injEq]
    constructor
    · rintro ⟨hm, rfl⟩
      exact ⟨rfl, hm⟩
    · rintro ⟨rfl, hm⟩
      exact ⟨hm, rfl⟩

theorem readInt64?_eq_none {n : Int} (h : Spells s.toList n) (hn : ¬ FitsInt64 n) :
    readInt64? s = none := by
  cases hread : readInt64? s with
  | none => rfl
  | some m =>
    obtain ⟨hm, hfits⟩ := readInt64?_eq_some_iff.mp hread
    have hmn : some m = some n :=
      (readInt?_eq_some_iff.mpr hm).symm.trans (readInt?_eq_some_iff.mpr h)
    exact absurd (Option.some.inj hmn ▸ hfits) hn

theorem isNumeral_digits (n : Nat) : IsNumeral (digits n) n where
  ne_nil := Nat.toDigits_ne_nil
  digits _ hd := Nat.isDigit_of_mem_toDigits (by decide) (by decide) hd
  value := Nat.ofDigitChars_ten_toDigits

theorem spells_integerText (n : Int) : Spells (integerText n).toList n := by
  rw [integerText, signed, String.toList_ofList]
  by_cases hn : n < 0
  · have hspells := Spells.minus (isNumeral_digits n.natAbs)
    rw [Int.ofNat_natAbs_of_nonpos (by omega), Int.neg_neg] at hspells
    simpa [hn] using hspells
  · have hspells := Spells.unsigned (isNumeral_digits n.natAbs)
    rw [Int.natAbs_of_nonneg (by omega)] at hspells
    simpa [hn] using hspells

end StockScreen.Decimal

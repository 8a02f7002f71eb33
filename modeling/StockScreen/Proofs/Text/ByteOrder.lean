import Mathlib.Data.List.Lex
import Mathlib.Data.String.Basic
import StockScreen.Proofs.Text.Utf8

/-! # The order of bytes

The first byte of a character grows with the character and tells how many bytes
follow, which are its digits to base 64. Texts are therefore in the same order
by their bytes as by their characters.
-/

namespace StockScreen.Utf8

def bytes (s : String) : List UInt8 := s.toUTF8.data.toList

theorem bytes_eq_encode (s : String) : bytes s = encode s.toList := by
  rw [bytes, String.toUTF8_eq_toByteArray, ← String.utf8Encode_toList]
  exact List.toList_data_toByteArray

/-! ## One character: its first byte, then its digits -/

def more (n : Nat) : Nat :=
  if n < 0x80 then 0 else if n < 0x800 then 1 else if n < 0x10000 then 2 else 3

/-- The first byte: what the digits that follow leave, above a mark for their number. -/
def lead (n : Nat) : Nat :=
  if n < 0x80 then n
  else if n < 0x800 then n / 64 + 0xC0
  else if n < 0x10000 then n / 64 ^ 2 + 0xE0
  else n / 64 ^ 3 + 0xF0

/-- The lowest `k` digits to base 64, the highest of them first. -/
def digits (n : Nat) : Nat → List UInt8
  | 0 => []
  | k + 1 => UInt8.ofNat (n / 64 ^ k % 64 + 0x80) :: digits n k

variable {m n k : Nat} {u v : List UInt8}

theorem ofNat_cons_lt (hn : n < 256) (hle : m ≤ n) (h : m = n → u < v) :
    UInt8.ofNat m :: u < UInt8.ofNat n :: v := by
  rcases Nat.lt_or_eq_of_le hle with hlt | rfl
  · refine .rel ?_
    rwa [UInt8.lt_iff_toNat_lt, toNat_ofNat (hlt.trans hn), toNat_ofNat hn]
  · exact .cons (h rfl)

theorem digits_append_lt (hsame : m / 64 ^ k = n / 64 ^ k) (hlt : m < n) :
    digits m k ++ u < digits n k ++ v := by
  -- Where the digits at a place are equal, the numbers agree from that place on.
  induction k with
  | zero =>
    rw [Nat.pow_zero, Nat.div_one, Nat.div_one] at hsame
    exact absurd hsame (Nat.ne_of_lt hlt)
  | succ k ih =>
    have hle : m / 64 ^ k ≤ n / 64 ^ k := Nat.div_le_div_right hlt.le
    rw [Nat.pow_succ, ← Nat.div_div_eq_div_mul, ← Nat.div_div_eq_div_mul] at hsame
    refine ofNat_cons_lt (by omega) (by omega) fun hdigit => ih ?_
    omega

theorem lead_lt (h : n < 0x110000) : lead n < 256 := by
  unfold lead
  split_ifs <;> omega

/-- A greater character has a greater first byte, or differs only in the digits that follow. -/
theorem lead_lt_or_eq (h : m < n) :
    lead m < lead n ∨ lead m = lead n ∧ more m = more n ∧ m / 64 ^ more m = n / 64 ^ more m := by
  unfold lead more
  split_ifs <;> omega

theorem utf8EncodeChar_eq (c : Char) :
    String.utf8EncodeChar c = UInt8.ofNat (lead c.toNat) :: digits c.toNat (more c.toNat) := by
  have hval : c.val.toNat = c.toNat := rfl
  have hc := toNat_lt c
  unfold String.utf8EncodeChar lead more
  rw [hval]
  by_cases h1 : c.toNat < 0x80
  · rw [if_pos (by omega), if_pos h1, if_pos h1, digits]
  by_cases h2 : c.toNat < 0x800
  · have hhighest : c.toNat / 64 % 32 = c.toNat / 64 := by omega
    rw [if_neg (by omega), if_pos (by omega), if_neg h1, if_pos h2, if_neg h1, if_pos h2, hhighest]
    simp [digits]
  by_cases h3 : c.toNat < 0x10000
  · have hhighest : c.toNat / 4096 % 16 = c.toNat / 4096 := by omega
    rw [if_neg (by omega), if_neg (by omega), if_pos (by omega), if_neg h1, if_neg h2, if_pos h3,
      if_neg h1, if_neg h2, if_pos h3, hhighest]
    simp [digits]
  · have hhighest : c.toNat / 262144 % 8 = c.toNat / 262144 := by omega
    rw [if_neg (by omega), if_neg (by omega), if_neg (by omega), if_neg h1, if_neg h2, if_neg h3,
      if_neg h1, if_neg h2, if_neg h3, hhighest]
    simp [digits]

theorem utf8EncodeChar_append_lt {c d : Char} (h : c < d) :
    String.utf8EncodeChar c ++ u < String.utf8EncodeChar d ++ v := by
  have hlt : c.toNat < d.toNat := UInt32.lt_iff_toNat_lt.mp (Char.lt_def.mp h)
  rw [utf8EncodeChar_eq, utf8EncodeChar_eq, List.cons_append, List.cons_append]
  rcases lead_lt_or_eq hlt with hlead | ⟨hlead, hmore, hsame⟩
  · exact ofNat_cons_lt (lead_lt (toNat_lt d)) hlead.le fun heq => absurd heq hlead.ne
  · rw [← hmore, hlead]
    exact .cons (digits_append_lt hsame hlt)

/-! ## Texts -/

theorem encode_lt_encode {as bs : List Char} (h : as < bs) : encode as < encode bs := by
  induction h with
  | @nil b bs =>
    rw [encode, encode, List.flatMap_nil, List.flatMap_cons, utf8EncodeChar_eq]
    exact .nil
  | rel hab => exact utf8EncodeChar_append_lt hab
  | cons _ ih => exact List.Lex.append_left _ ih _

variable {a b : String}

theorem bytes_lt_bytes (h : a < b) : bytes a < bytes b := by
  rw [bytes_eq_encode, bytes_eq_encode]
  exact encode_lt_encode (String.lt_iff_toList_lt.mp h)

theorem bytes_lt_bytes_iff : bytes a < bytes b ↔ a < b := by
  refine ⟨fun h => ?_, bytes_lt_bytes⟩
  rcases lt_trichotomy a b with hab | rfl | hba
  · exact hab
  · exact absurd h (List.lt_irrefl _)
  · exact absurd h (List.lt_asymm (bytes_lt_bytes hba))

end StockScreen.Utf8

import StockScreen.Text.Utf8

/-! # Decoding what was encoded

A character is encoded by one to four bytes, by its size. The decoder finds the
same size at the first byte, and gives each text back.
-/

namespace StockScreen.Utf8

variable {n : Nat} {c : Char} {rest : List UInt8}

theorem toNat_ofNat (h : n < 256) : (UInt8.ofNat n).toNat = n := by
  rw [UInt8.toNat_ofNat', Nat.mod_eq_of_lt h]

theorem continuation?_ofNat (h : n < 64) : continuation? (UInt8.ofNat (n + 128)) = some n := by
  have hb : (UInt8.ofNat (n + 128)).toNat = n + 128 := toNat_ofNat (by omega)
  have hlow : (0x80 : UInt8) ≤ UInt8.ofNat (n + 128) := by
    rw [UInt8.le_iff_toNat_le, hb]
    exact Nat.le_add_left ..
  have hhigh : UInt8.ofNat (n + 128) < (0xC0 : UInt8) := by
    rw [UInt8.lt_iff_toNat_lt, hb]
    exact Nat.add_lt_add_right h 128
  have hboth : (0x80 ≤ UInt8.ofNat (n + 128) && UInt8.ofNat (n + 128) < 0xC0) = true :=
    Bool.and_eq_true_iff.mpr ⟨decide_eq_true hlow, decide_eq_true hhigh⟩
  rw [continuation?, if_pos hboth, hb]
  exact congrArg some (Nat.add_sub_cancel ..)

theorem scalar?_toNat (least : Nat) (h : least ≤ c.toNat) : scalar? least c.toNat = some c := by
  have hvalid : c.toNat.isValidChar := c.valid
  rw [scalar?, if_pos ⟨h, hvalid⟩, Char.ofNat_toNat]

theorem toNat_lt (c : Char) : c.toNat < 0x110000 := by
  have hvalid : c.toNat.isValidChar := c.valid
  rcases hvalid with h | ⟨-, h⟩ <;> omega

/-! ## One character, by its number of bytes -/

theorem first?_one (h : c.toNat < 0x80) :
    first? (UInt8.ofNat c.toNat :: rest) = some (c, 0) := by
  have hlead := toNat_ofNat (n := c.toNat) (by omega)
  have hs := scalar?_toNat 0 (Nat.zero_le c.toNat)
  simp only [first?, hlead]
  rw [if_pos h, hs]
  rfl

theorem first?_two (hlow : 0x80 ≤ c.toNat) (hhigh : c.toNat < 0x800) :
    first? (UInt8.ofNat (c.toNat / 64 % 32 + 192) :: UInt8.ofNat (c.toNat % 64 + 128) :: rest) =
      some (c, 1) := by
  have hlead := toNat_ofNat (n := c.toNat / 64 % 32 + 192) (by omega)
  have hx := continuation?_ofNat (n := c.toNat % 64) (by omega)
  have hvalue : (c.toNat / 64 % 32 + 192 - 0xC0) * 64 + c.toNat % 64 = c.toNat := by omega
  simp only [first?, hlead, hx]
  rw [if_neg (by omega), if_neg (by omega), if_pos (by omega)]
  simp only [Option.bind_eq_bind, Option.bind_some, hvalue, scalar?_toNat 0x80 hlow]
  rfl

theorem first?_three (hlow : 0x800 ≤ c.toNat) (hhigh : c.toNat < 0x10000) :
    first? (UInt8.ofNat (c.toNat / 4096 % 16 + 224) :: UInt8.ofNat (c.toNat / 64 % 64 + 128) ::
      UInt8.ofNat (c.toNat % 64 + 128) :: rest) = some (c, 2) := by
  have hlead := toNat_ofNat (n := c.toNat / 4096 % 16 + 224) (by omega)
  have hx := continuation?_ofNat (n := c.toNat / 64 % 64) (by omega)
  have hy := continuation?_ofNat (n := c.toNat % 64) (by omega)
  have hvalue : ((c.toNat / 4096 % 16 + 224 - 0xE0) * 64 + c.toNat / 64 % 64) * 64 +
      c.toNat % 64 = c.toNat := by omega
  simp only [first?, hlead, hx, hy]
  rw [if_neg (by omega), if_neg (by omega), if_neg (by omega), if_pos (by omega)]
  simp only [Option.bind_eq_bind, Option.bind_some, hvalue, scalar?_toNat 0x800 hlow]
  rfl

theorem first?_four (hlow : 0x10000 ≤ c.toNat) :
    first? (UInt8.ofNat (c.toNat / 262144 % 8 + 240) :: UInt8.ofNat (c.toNat / 4096 % 64 + 128) ::
      UInt8.ofNat (c.toNat / 64 % 64 + 128) :: UInt8.ofNat (c.toNat % 64 + 128) :: rest) =
        some (c, 3) := by
  have hc := toNat_lt c
  have hlead := toNat_ofNat (n := c.toNat / 262144 % 8 + 240) (by omega)
  have hx := continuation?_ofNat (n := c.toNat / 4096 % 64) (by omega)
  have hy := continuation?_ofNat (n := c.toNat / 64 % 64) (by omega)
  have hz := continuation?_ofNat (n := c.toNat % 64) (by omega)
  have hvalue : (((c.toNat / 262144 % 8 + 240 - 0xF0) * 64 + c.toNat / 4096 % 64) * 64 +
      c.toNat / 64 % 64) * 64 + c.toNat % 64 = c.toNat := by omega
  simp only [first?, hlead, hx, hy, hz]
  rw [if_neg (by omega), if_neg (by omega), if_neg (by omega), if_neg (by omega),
    if_pos (by omega)]
  simp only [Option.bind_eq_bind, Option.bind_some, hvalue, scalar?_toNat 0x10000 hlow]
  rfl

/-- The decoder reads one character off its bytes, whatever follows them. -/
theorem first?_encoded (c : Char) (rest : List UInt8) :
    first? (String.utf8EncodeChar c ++ rest) = some (c, (String.utf8EncodeChar c).length - 1) := by
  have hval : c.val.toNat = c.toNat := rfl
  unfold String.utf8EncodeChar
  rw [hval]
  by_cases h1 : c.toNat ≤ 127
  · rw [if_pos h1]
    exact first?_one (by omega)
  by_cases h2 : c.toNat ≤ 2047
  · rw [if_neg h1, if_pos h2]
    exact first?_two (by omega) (by omega)
  by_cases h3 : c.toNat ≤ 65535
  · rw [if_neg h1, if_neg h2, if_pos h3]
    exact first?_three (by omega) (by omega)
  · rw [if_neg h1, if_neg h2, if_neg h3]
    exact first?_four (by omega)

theorem decodeFrom_encode (start : Nat) (cs : List Char) :
    decodeFrom start (encode cs) = .ok cs := by
  induction cs generalizing start with
  | nil => simp [encode, decodeFrom]
  | cons c cs ih =>
    have hfirst := first?_encoded c (encode cs)
    have hpos : 0 < (String.utf8EncodeChar c).length := by
      rw [String.length_utf8EncodeChar]
      exact Char.utf8Size_pos c
    obtain ⟨b, more, hb⟩ := List.exists_cons_of_length_pos hpos
    have hcons : encode (c :: cs) = b :: (more ++ encode cs) := by
      rw [encode, List.flatMap_cons, hb, List.cons_append, encode]
    rw [hb, List.cons_append, List.length_cons, Nat.add_sub_cancel] at hfirst
    rw [hcons, decodeFrom, hfirst]
    simp only [List.drop_left, ih]
    rfl

end StockScreen.Utf8

namespace StockScreen

theorem readText_encode (cs : List Char) :
    readText (.ok (Utf8.encode cs)) = .ok (String.ofList cs) := by
  have hdecode : Utf8.decode (Utf8.encode cs) = .ok cs := Utf8.decodeFrom_encode 0 cs
  simp only [readText, bind, Except.bind, hdecode]
  rfl

end StockScreen

import StockScreen.Calendar

/-! # Times of day are read back -/

namespace StockScreen.Calendar

variable {n : Nat}

theorem isDigit_digitChar (h : n < 10) : (Nat.digitChar n).isDigit := by
  revert n
  decide

theorem toNat_digitChar (h : n < 10) : (Nat.digitChar n).toNat - '0'.toNat = n := by
  revert n
  decide

theorem isBlank_digitChar (h : n < 10) : Text.isBlank (Nat.digitChar n) = false := by
  revert n
  decide

theorem takeNumber?_twoDigits (h : n < 100) (rest : List Char) :
    takeNumber? 2 (twoDigits n ++ rest) = some (n, rest) := by
  have htens : n / 10 < 10 := by omega
  have hones : n % 10 < 10 := by omega
  have hvalue : Decimal.digitsValue 0 (twoDigits n) = n := by
    simp only [Decimal.digitsValue, twoDigits, List.foldl_cons, List.foldl_nil,
      toNat_digitChar htens, toNat_digitChar hones]
    omega
  have hskip : Text.skipBlanks (twoDigits n ++ rest) = twoDigits n ++ rest :=
    List.dropWhile_cons_of_neg (by simp [isBlank_digitChar htens])
  have htake : ((twoDigits n ++ rest).take 2).takeWhile Char.isDigit = twoDigits n := by
    simp [twoDigits, isDigit_digitChar htens, isDigit_digitChar hones]
  rw [takeNumber?, hskip, takeDigits?, htake, hvalue]
  rfl

theorem skipChar?_cons (c : Char) (rest : List Char) : skipChar? c (c :: rest) = some rest :=
  if_pos rfl

theorem Clock.read?_text (t : Clock) : Clock.read? t.text = some t := by
  obtain ⟨⟨hour, hh⟩, ⟨minute, hm⟩, ⟨second, hs⟩⟩ := t
  have hlast := takeNumber?_twoDigits (n := second) (by omega) []
  rw [List.append_nil] at hlast
  simp only [read?, text, String.toList_ofList, List.append_assoc, List.cons_append,
    takeNumber?_twoDigits (show hour < 100 by omega), skipChar?_cons,
    takeNumber?_twoDigits (show minute < 100 by omega), hlast, Option.bind_eq_bind,
    Option.bind_some]
  exact dif_pos ⟨hh, hm, hs, trivial⟩

end StockScreen.Calendar

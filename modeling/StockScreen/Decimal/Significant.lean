import StockScreen.Decimal.Extended
import StockScreen.Decimal.Format

/-! # Decimal texts with fifteen digits

A number is multiplied by powers of ten in extended precision until it has
eighteen or nineteen digits before the point. These are rounded to fifteen, a
half up, and zeros at the end are left out. Very large and very small numbers
have an exponent.
-/

namespace StockScreen.Decimal

def significantDigits : Nat := 15

structure Shifted where
  number : Extended
  power : Int

/-- Multiply by `10 ^ e`, and keep the value, as long as the number needs it. -/
def Shifted.moveWhile (needed : Extended → Bool) (e : Int) : Nat → Shifted → Shifted
  | 0, s => s
  | steps + 1, s =>
    if needed s.number then
      moveWhile needed e steps ⟨s.number.mul (.power e), s.power - e⟩
    else s

/-- Bring a number into the range from `10 ^ 17` to `10 ^ 19`. -/
def Extended.level (x : Extended) : Shifted :=
  let atLeast (e : Int) (x : Extended) : Bool := (power e).le x
  let below (e : Int) (x : Extended) : Bool := !atLeast e x
  let s : Shifted := ⟨x, 0⟩
  if atLeast 19 x then
    ((s.moveWhile (atLeast 119) (-100) 4).moveWhile (atLeast 29) (-10) 10).moveWhile
      (atLeast 19) (-1) 10
  else
    ((s.moveWhile (below (-97)) 100 4).moveWhile (below 7) 10 11).moveWhile (below 17) 1 10

def dropZeros (ds : List Char) : List Char := (ds.reverse.dropWhile (· == '0')).reverse

def fractionText (ds : List Char) : List Char := if ds.isEmpty then ['.', '0'] else '.' :: ds

/-- The text of the number `0.ds · 10 ^ (e + 1)`, whose first digit is not zero. -/
def significantText (ds : List Char) (e : Int) : List Char :=
  if e < -4 ∨ (significantDigits : Int) ≤ e then
    let power := digits e.natAbs
    ds.take 1 ++ fractionText (ds.drop 1) ++ 'e' :: (if e < 0 then '-' else '+') ::
      zeros (2 - power.length) ++ power
  else if e < 0 then '0' :: fractionText (zeros (e.natAbs - 1) ++ ds)
  else
    let whole := e.toNat + 1
    ds.take whole ++ zeros (whole - ds.length) ++ fractionText (ds.drop whole)

def formatSignificant (x : Float) : String :=
  match Reading.of x with
  | .nan => "NaN"
  | .infinite negative => signed negative "Inf".toList
  | .finite b =>
    if b.mantissa = 0 then "0.0"
    else
      let s := Extended.level ⟨b.mantissa, b.exponent⟩
      let n := s.number.floor
      let size := (digits n).length
      let ds := digits (roundHalfUp n (Nat.pow 10 (size - significantDigits)))
      let e := s.power + size - 1
      -- Rounding up may have made one digit more.
      let e := if significantDigits < ds.length then e + 1 else e
      signed b.negative (significantText (dropZeros ds) e)

end StockScreen.Decimal

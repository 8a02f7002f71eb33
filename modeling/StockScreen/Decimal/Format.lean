import StockScreen.Decimal.Shortest

/-! # Decimal texts of numbers

Numbers are written with the fewest digits that read back or with a fixed
number of places, without an exponent. Compact texts always have a point or an
exponent, which very large and very small numbers have.
-/

namespace StockScreen.Decimal

def digits (n : Nat) : List Char := Nat.toDigits 10 n

def zeros (n : Nat) : List Char := List.replicate n '0'

/-- The text of `n · 10 ^ e`, with a point only before a fraction. -/
def positional (n : Nat) (e : Int) : List Char :=
  let ds := digits n
  if 0 ≤ e then ds ++ zeros e.toNat
  else
    let places := (-e).toNat
    if places < ds.length then
      ds.take (ds.length - places) ++ '.' :: ds.drop (ds.length - places)
    else '0' :: '.' :: zeros (places - ds.length) ++ ds

def signed (negative : Bool) (cs : List Char) : String :=
  String.ofList (if negative then '-' :: cs else cs)

def integerText (n : Int) : String := signed (n < 0) (digits n.natAbs)

/-- The shortest text that reads back as `x`. -/
def format (x : Float) : String :=
  match Reading.of x with
  | .nan => "NaN"
  | .infinite negative => signed negative "inf".toList
  | .finite b =>
    let (n, e) := if b.mantissa = 0 then (0, 0) else shortest b.mantissa b.exponent
    signed b.negative (positional n e)

/-- The digits of `n` hundredths, thousandths, … according to the number of places. -/
def withPlaces (places n : Nat) : List Char :=
  let ds := digits n
  let ds := zeros (places + 1 - ds.length) ++ ds
  if places = 0 then ds
  else ds.take (ds.length - places) ++ '.' :: ds.drop (ds.length - places)

/-- Text with `places` decimal places; the exact value is rounded, a half to the even neighbour. -/
def formatFixed (places : Nat) (x : Float) : String :=
  match Reading.of x with
  | .nan => "NaN"
  | .infinite negative => signed negative "inf".toList
  | .finite b =>
    let (num, den) := scaled b.mantissa b.exponent
    signed b.negative (withPlaces places (roundHalfEven (num * Nat.pow 10 places) den))

/-- Like `formatFixed`, with a plus sign before what is not negative. -/
def formatSigned (places : Nat) (x : Float) : String :=
  let s := formatFixed places x
  match Reading.of x with
  | .nan => s
  | .infinite negative => if negative then s else "+" ++ s
  | .finite b => if b.negative then s else "+" ++ s

/-! ## Compact texts -/

def exponentText (e : Int) : List Char :=
  'e' :: (if e < 0 then '-' else '+') :: digits e.natAbs

/-- One digit before the point, and an exponent. -/
def scientific (n : Nat) (e : Int) : List Char :=
  let ds := digits n
  let point := if ds.length ≤ 1 then [] else '.' :: ds.drop 1
  ds.take 1 ++ point ++ exponentText (e + ds.length - 1)

/-- The text of `n · 10 ^ e`: positional from `0.00001` up to sixteen digits before the point. -/
def compact (n : Nat) (e : Int) : List Char :=
  let size : Int := (digits n).length + e
  if size ≤ -5 ∨ 16 < size then scientific n e
  else if 0 ≤ e then positional n e ++ ['.', '0']
  else positional n e

def formatCompact (x : Float) : String :=
  match Reading.of x with
  | .nan => "NaN"
  | .infinite negative => signed negative "inf".toList
  | .finite b =>
    let (n, e) := if b.mantissa = 0 then (0, 0) else shortest b.mantissa b.exponent
    signed b.negative (compact n e)

end StockScreen.Decimal

import StockScreen.Text.Basic

/-! # Reading numbers

A number is an optional sign before `inf`, `infinity`, `nan` in any letter
case, or before decimal digits with an optional point and an optional power of
ten. No blanks are allowed.
-/

namespace StockScreen.Decimal

/-- The value of decimal digits after the digits of `start`. -/
def digitsValue (start : Nat) (ds : List Char) : Nat :=
  ds.foldl (fun n d => n * 10 + (d.toNat - '0'.toNat)) start

/-- Split off a leading sign; `true` is minus. -/
def takeSign : List Char → Bool × List Char
  | '-' :: cs => (true, cs)
  | '+' :: cs => (false, cs)
  | cs => (false, cs)

def readNat? (cs : List Char) : Option Nat :=
  if cs ≠ [] ∧ cs.all Char.isDigit then some (digitsValue 0 cs) else none

def readInt? (cs : List Char) : Option Int :=
  let (negative, cs) := takeSign cs
  (readNat? cs).map fun n => if negative then -n else n

def readInt64? (s : String) : Option Int :=
  match readInt? s.toList with
  | some n => if -(Nat.pow 2 63 : Int) ≤ n ∧ n < Nat.pow 2 63 then some n else none
  | none => none

/-- Digits, written as `mantissa · 10 ^ exponent`. -/
structure Scientific where
  mantissa : Nat
  exponent : Int
  deriving DecidableEq, Repr

/-- Digits with at most one point among them, before what follows. -/
def readDigits? (cs : List Char) : Option (Scientific × List Char) :=
  let whole := cs.takeWhile Char.isDigit
  let rest := cs.dropWhile Char.isDigit
  let (fraction, rest) := match rest with
    | '.' :: rest => (rest.takeWhile Char.isDigit, rest.dropWhile Char.isDigit)
    | rest => ([], rest)
  if whole.isEmpty && fraction.isEmpty then none
  else some (⟨digitsValue (digitsValue 0 whole) fraction, -fraction.length⟩, rest)

/-- Digits, then at most a power of ten after the letter `e`. -/
def readScientific? (cs : List Char) : Option Scientific :=
  match readDigits? cs with
  | none => none
  | some (s, []) => some s
  | some (s, c :: rest) =>
    if c = 'e' ∨ c = 'E' then
      (readInt? rest).map fun e => { s with exponent := s.exponent + e }
    else none

/-- The nearest double. Exponents far outside its range are cut off first. -/
def Scientific.toFloat (s : Scientific) : Float :=
  if s.mantissa = 0 then 0
  else
    let size : Int := (Nat.toDigits 10 s.mantissa).length + s.exponent
    if 400 < size then 1.0 / 0.0
    else if size < -400 then 0
    else Float.ofScientific s.mantissa (s.exponent < 0) s.exponent.natAbs

def unsigned? (cs : List Char) : Option Float :=
  let word := Text.asciiLower (String.ofList cs)
  if word == "inf" || word == "infinity" then some (1.0 / 0.0)
  else if word == "nan" then some (0.0 / 0.0)
  else (readScientific? cs).map Scientific.toFloat

def readFloat? (s : String) : Option Float :=
  let (negative, cs) := takeSign s.toList
  (unsigned? cs).map fun x => if negative then -x else x

end StockScreen.Decimal

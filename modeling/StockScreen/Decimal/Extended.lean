import StockScreen.Decimal.Binary

/-! # Numbers of extended precision

Positive numbers with 64 significant bits. A product is rounded to the nearest
one, a half to the even neighbour.
-/

namespace StockScreen.Decimal

/-- The number `mantissa · 2 ^ exponent`. -/
structure Extended where
  mantissa : Nat
  exponent : Int
  deriving DecidableEq, Repr

namespace Extended

def significantBits : Nat := 64

def ofRatio (num den : Nat) : Extended :=
  let e : Int := (Nat.log2 num : Int) - Nat.log2 den - (significantBits - 1)
  let reach (e : Int) : Int := e + (significantBits - 1)
  let e := if den * Nat.pow 2 (reach e).toNat ≤ num * Nat.pow 2 (-reach e).toNat then e else e - 1
  ⟨roundHalfEven (num * Nat.pow 2 (-e).toNat) (den * Nat.pow 2 e.toNat), e⟩

def ofNat (n : Nat) : Extended := ofRatio n 1

def mul (x y : Extended) : Extended :=
  let r := ofNat (x.mantissa * y.mantissa)
  { r with exponent := r.exponent + x.exponent + y.exponent }

def power : Int → Extended
  | .ofNat k => ofRatio (Nat.pow 10 k) 1
  | .negSucc k => ofRatio 1 (Nat.pow 10 (k + 1))

def le (x y : Extended) : Bool :=
  x.mantissa * Nat.pow 2 (x.exponent - y.exponent).toNat ≤
    y.mantissa * Nat.pow 2 (y.exponent - x.exponent).toNat

def floor (x : Extended) : Nat :=
  let (num, den) := scaled x.mantissa x.exponent
  num / den

/-- Multiply by `10 ^ (e · k)` in `k` steps. -/
def step (e : Int) (k : Nat) (x : Extended) : Extended := Nat.repeat (mul · (power e)) k x

/-- Multiply by `10 ^ e` in steps of hundreds, tens and single powers. -/
def shift (e : Int) (x : Extended) : Extended :=
  let n := e.natAbs
  let x := x.step (100 * e.sign) (n / 100)
  let x := x.step (10 * e.sign) (n / 10 % 10)
  x.step e.sign (n % 10)

def greatest : Extended := ⟨Nat.pow 2 53 - 1, 971⟩

/-- The nearest double, or infinity above the greatest one. -/
def toFloat (x : Extended) : Float :=
  if !x.le greatest then 1.0 / 0.0
  else match x.exponent with
    | .ofNat k => Float.ofScientific (x.mantissa * Nat.pow 2 k) false 0
    | .negSucc k => Float.ofScientific (x.mantissa * Nat.pow 5 (k + 1)) true (k + 1)

end Extended

end StockScreen.Decimal

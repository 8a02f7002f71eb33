import StockScreen.Decimal.Extended
import StockScreen.Decimal.Reader

/-! # Decimals to doubles in steps

The first digits of a decimal are multiplied by its power of ten in extended
precision. Nearly always this gives the nearest double.
-/

namespace StockScreen.Decimal

def greatestWord : Nat := Nat.pow 2 64 - 1

/-- Leave out the last digits of what has one digit more than is needed. -/
def leading (n : Nat) (e : Int) : Nat × Int :=
  if (greatestWord - 9) / 10 ≤ n / 10 then leading (n / 10) (e + 1) else (n, e)
termination_by n
decreasing_by
  have h : 1 ≤ (greatestWord - 9) / 10 := by decide
  omega

/-- Multiply by ten at most `k` times, as long as the result has 64 bits. -/
def raise (n : Nat) : Nat → Nat × Nat
  | 0 => (n, 0)
  | k + 1 => if n < greatestWord / 10 then raise (n * 10) k else (n, k + 1)

/-- Divide by ten at most `k` times, as long as no digit but zero is lost. -/
def lower (n : Nat) : Nat → Nat × Nat
  | 0 => (n, 0)
  | k + 1 => if n % 10 = 0 then lower (n / 10) k else (n, k + 1)

/-- The decimal with a power of ten that is as small as it can be. -/
def balance (n : Nat) : Int → Nat × Int
  | .ofNat k => let (n, k) := raise n k; (n, k)
  | .negSucc k => let (n, k) := lower n (k + 1); (n, -k)

/-- The double that the steps lead to. Exponents far outside its range are cut off first. -/
def Scientific.toFloatStepped (s : Scientific) : Float :=
  let size : Int := (Nat.toDigits 10 s.mantissa).length + s.exponent
  if s.mantissa = 0 ∨ size < -400 then 0
  else if 400 < size then 1.0 / 0.0
  else
    let (n, e) := leading s.mantissa s.exponent
    let (n, e) := balance n e
    if e = 0 then Float.ofNat n else ((Extended.ofNat n).shift e).toFloat

end StockScreen.Decimal

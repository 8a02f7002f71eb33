/-! # Binary numbers

What a double-precision number stands for: nothing, an infinity, or an integer
times a power of two. Quotients of integers are rounded to a nearest one.
-/

namespace StockScreen.Decimal

/-- The number `± mantissa · 2 ^ exponent`. -/
structure Binary where
  negative : Bool
  mantissa : Nat
  exponent : Int
  deriving DecidableEq, Repr

inductive Reading
  | nan
  | infinite (negative : Bool)
  | finite (b : Binary)
  deriving DecidableEq, Repr

/-- Take the bits of a double apart: a sign, eleven bits of exponent and fifty-two of mantissa. -/
def Reading.ofBits (bits : Nat) : Reading :=
  let negative := bits / Nat.pow 2 63 % 2 == 1
  let exponent : Nat := bits / Nat.pow 2 52 % Nat.pow 2 11
  let fraction := bits % Nat.pow 2 52
  if exponent = 2047 then
    if fraction = 0 then .infinite negative else .nan
  else if exponent = 0 then .finite ⟨negative, fraction, -1074⟩
  else .finite ⟨negative, Nat.pow 2 52 + fraction, (exponent : Int) - 1075⟩

def Reading.of (x : Float) : Reading := .ofBits x.toBits.toNat

/-- `n · 2 ^ e` as a fraction. -/
def scaled (n : Nat) (e : Int) : Nat × Nat :=
  match e with
  | .ofNat k => (n * Nat.pow 2 k, 1)
  | .negSucc k => (n, Nat.pow 2 (k + 1))

def Binary.compareInt (b : Binary) (n : Int) : Ordering :=
  let (num, den) := scaled b.mantissa b.exponent
  compare (if b.negative then -(num : Int) else num) (n * den)

/-- The integer nearest to `num / den`; a half goes to the even neighbour. -/
def roundHalfEven (num den : Nat) : Nat :=
  let q := num / den
  let r := num % den
  if 2 * r < den then q
  else if den < 2 * r then q + 1
  else if q % 2 = 0 then q else q + 1

/-- The integer nearest to `num / den`; a half goes up. -/
def roundHalfUp (num den : Nat) : Nat := (2 * num + den) / (2 * den)

end StockScreen.Decimal

import StockScreen.Decimal.Format
import StockScreen.Decimal.Reader

/-! # Numbers in JSON

A number is an integer of 64 bits or a double. Of the digits of a double as
many count as fit 64 bits, and the power of ten is applied in one step.
-/

namespace StockScreen.Json

inductive Number
  | integer (n : Int)
  | float (x : Float)
  /-- The number is too large for a double. -/
  | overflow

structure Numeral where
  negative : Bool
  whole : List Char
  /-- The digits behind the point, if there is one. -/
  fraction : Option (List Char)
  /-- The sign and the digits of the exponent, if there is one. -/
  exponent : Option (Bool × List Char)

def takeDigits? (cs : List Char) : Option (List Char × List Char) :=
  if (cs.takeWhile Char.isDigit).isEmpty then none
  else some (cs.takeWhile Char.isDigit, cs.dropWhile Char.isDigit)

/-- Digits of which the first is zero only if it is the only one. -/
def takeWhole? (cs : List Char) : Option (List Char × List Char) :=
  match takeDigits? cs with
  | some ('0' :: _ :: _, _) => none
  | r => r

def takeFraction? : List Char → Option (Option (List Char) × List Char)
  | '.' :: cs => (takeDigits? cs).map fun (ds, rest) => (some ds, rest)
  | cs => some (none, cs)

def takeExponent? : List Char → Option (Option (Bool × List Char) × List Char)
  | [] => some (none, [])
  | c :: cs =>
    if c = 'e' ∨ c = 'E' then
      (takeDigits? (Decimal.takeSign cs).2).map fun (ds, rest) =>
        (some ((Decimal.takeSign cs).1, ds), rest)
    else some (none, c :: cs)

def takeUnsigned? (negative : Bool) (cs : List Char) : Option (Numeral × List Char) := do
  let (whole, cs) ← takeWhole? cs
  let (fraction, cs) ← takeFraction? cs
  let (exponent, cs) ← takeExponent? cs
  pure (⟨negative, whole, fraction, exponent⟩, cs)

/-- A numeral that begins with `c`, and what follows it. -/
def takeNumeral? (c : Char) (cs : List Char) : Option (Numeral × List Char) :=
  if c = '-' then takeUnsigned? true cs else takeUnsigned? false (c :: cs)

theorem length_rest_takeDigits {cs ds rest : List Char} (h : takeDigits? cs = some (ds, rest)) :
    rest.length < cs.length := by
  unfold takeDigits? at h
  split at h
  · simp at h
  · rename_i hne
    cases h
    have ha := congrArg List.length (List.takeWhile_append_dropWhile (p := Char.isDigit) (l := cs))
    have hp : 0 < (cs.takeWhile Char.isDigit).length :=
      List.length_pos_iff.2 (by simpa using hne)
    rw [List.length_append] at ha
    omega

theorem length_rest_takeWhole {cs ds rest : List Char} (h : takeWhole? cs = some (ds, rest)) :
    rest.length < cs.length := by
  unfold takeWhole? at h
  split at h
  · simp at h
  · exact length_rest_takeDigits h

theorem length_rest_takeFraction {cs rest : List Char} {f : Option (List Char)}
    (h : takeFraction? cs = some (f, rest)) : rest.length ≤ cs.length := by
  unfold takeFraction? at h
  split at h
  · obtain ⟨⟨ds, r⟩, hd, he⟩ := Option.map_eq_some_iff.1 h
    cases he
    exact Nat.le_succ_of_le (Nat.le_of_lt (length_rest_takeDigits hd))
  · cases h
    exact Nat.le_refl _

theorem length_takeSign_le (cs : List Char) : (Decimal.takeSign cs).2.length ≤ cs.length := by
  unfold Decimal.takeSign
  split <;> simp

theorem length_rest_takeExponent {cs rest : List Char} {e : Option (Bool × List Char)}
    (h : takeExponent? cs = some (e, rest)) : rest.length ≤ cs.length := by
  unfold takeExponent? at h
  split at h
  · cases h
    exact Nat.le_refl _
  · rename_i c cs
    split at h
    · obtain ⟨⟨ds, r⟩, hd, he⟩ := Option.map_eq_some_iff.1 h
      cases he
      have := length_rest_takeDigits hd
      have := length_takeSign_le cs
      simp only [List.length_cons]
      omega
    · cases h
      exact Nat.le_refl _

theorem length_rest_takeUnsigned {negative : Bool} {cs rest : List Char} {n : Numeral}
    (h : takeUnsigned? negative cs = some (n, rest)) : rest.length < cs.length := by
  simp only [takeUnsigned?, Option.bind_eq_bind, Option.bind_eq_some_iff, Prod.exists,
    Option.pure_def, Option.some.injEq, Prod.mk.injEq] at h
  obtain ⟨ds, r, hw, f, r', hf, e, r'', he, -, rfl⟩ := h
  have := length_rest_takeWhole hw
  have := length_rest_takeFraction hf
  have := length_rest_takeExponent he
  omega

theorem length_rest_takeNumeral {c : Char} {cs rest : List Char} {n : Numeral}
    (h : takeNumeral? c cs = some (n, rest)) : rest.length ≤ cs.length := by
  unfold takeNumeral? at h
  split at h
  · exact Nat.le_of_lt (length_rest_takeUnsigned h)
  · exact Nat.le_of_lt_succ (length_rest_takeUnsigned h)

/-- Take digits behind `n` as long as the value fits 64 bits. -/
def absorb (n : Nat) : List Char → Nat × List Char
  | [] => (n, [])
  | d :: ds =>
    let m := Decimal.digitsValue n [d]
    if m < Nat.pow 2 64 then absorb m ds else (n, d :: ds)

def powerOfTen (k : Nat) : Float := Float.ofScientific 1 false k

/-- Divide by ten to the power `k`, in steps of 308. -/
def divideByPower (x : Float) (k : Nat) : Float :=
  if k ≤ 308 then x / powerOfTen k
  else if x == 0 then x
  else divideByPower (x / powerOfTen 308) (k - 308)
termination_by k

/-- `x · 10 ^ e`, unless that is too large. -/
def scaleByPower? (x : Float) (e : Int) : Option Float :=
  if e < 0 then some (divideByPower x e.natAbs)
  else if x == 0 then some x
  else if e ≤ 308 then
    let y := x * powerOfTen e.toNat
    if y.isInf then none else some y
  else none

def floatOf (negative : Bool) (significand : Nat) (e : Int) : Number :=
  match scaleByPower? (Float.ofInt significand) e with
  | some x => .float (if negative then -x else x)
  | none => .overflow

/-- The integer, or the double if it needs more than 64 bits; minus zero is a double. -/
def integerOf (negative : Bool) (n : Nat) : Number :=
  if !negative then .integer n
  else if n = 0 ∨ Nat.pow 2 63 < n then .float (-(Float.ofInt n))
  else .integer (-n)

def Numeral.value (n : Numeral) : Number :=
  let (significand, surplus) := absorb 0 n.whole
  match n.fraction, n.exponent, surplus with
  | none, none, [] => integerOf n.negative significand
  | _, _, _ =>
    let places := n.fraction.getD []
    let (significand, unused) := absorb significand places
    let e : Int := surplus.length - (places.length - unused.length : Nat)
    match n.exponent with
    | none => floatOf n.negative significand e
    | some (down, ds) =>
      let shift : Int := Decimal.digitsValue 0 ds
      floatOf n.negative significand (if down then e - shift else e + shift)

def Number.describe? : Number → Option String
  | integer n => some ("integer `" ++ Decimal.integerText n ++ "`")
  | float x => some ("floating point `" ++ Decimal.formatCompact x ++ "`")
  | overflow => none

end StockScreen.Json

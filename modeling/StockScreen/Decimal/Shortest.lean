import StockScreen.Decimal.Binary

/-! # Shortest decimals

The decimal with the fewest digits among those that read back as a given
binary number, and of these the nearest. Between two equally near ones the
larger is taken.
-/

namespace StockScreen.Decimal

/-- The numbers that round to one binary number, in units of `num / den` of a decimal grid: they
reach from `low` to `high` around `mid`, ends included if `closed`. -/
structure Interval where
  low : Nat
  mid : Nat
  high : Nat
  closed : Bool

/-- Quarters of the last binary place: half a place on both sides, but a quarter below a power of
two, where the places become finer. -/
def Interval.around (m : Nat) (q : Int) : Interval :=
  let below := if m = Nat.pow 2 52 ∧ -1074 < q then 1 else 2
  { low := 4 * m - below, mid := 4 * m, high := 4 * m + 2, closed := m % 2 == 0 }

/-- The grid point `n` of width `den / num` lies in the interval. -/
def Interval.holds (i : Interval) (num den n : Nat) : Bool :=
  if i.closed then i.low * num ≤ n * den && n * den ≤ i.high * num
  else i.low * num < n * den && n * den < i.high * num

/-- The grid point of the interval next to its middle. -/
def Interval.pick? (i : Interval) (num den : Nat) : Option Nat :=
  let n := i.mid * num / den
  let down := i.holds num den n
  let up := i.holds num den (n + 1)
  if down && up then
    if i.mid * num - n * den < (n + 1) * den - i.mid * num then some n else some (n + 1)
  else if down then some n
  else if up then some (n + 1)
  else none

/-- The fraction by which quarters of `2 ^ q` become steps of `10 ^ e`. -/
def gridRatio (q e : Int) : Nat × Nat :=
  (Nat.pow 2 (q - 2).toNat * Nat.pow 10 (-e).toNat, Nat.pow 2 (2 - q).toNat * Nat.pow 10 e.toNat)

/-- Try the grids `10 ^ e`, `10 ^ (e - 1)`, … . -/
def search (i : Interval) (q : Int) : Nat → Int → Nat × Int
  | 0, e => (0, e)
  | fuel + 1, e =>
    let (num, den) := gridRatio q e
    match i.pick? num den with
    | some n => (n, e)
    | none => search i q fuel (e - 1)

/-- Digits `n` and exponent `e` of the shortest `n · 10 ^ e` that reads back as `m · 2 ^ q`. -/
def shortest (m : Nat) (q : Int) : Nat × Int :=
  if m = 0 then (0, 0)
  else
    let size : Int := (Nat.log2 m : Int) + 1 + q
    search (.around m q) q 24 ((size * 30103).fdiv 100000 + 2)

end StockScreen.Decimal

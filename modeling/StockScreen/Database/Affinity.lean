import StockScreen.Cell
import StockScreen.Decimal.Significant
import StockScreen.Decimal.Stepped

/-! # Affinities of columns

A column keeps texts, reals or integers. What is put into it is brought into
that form where nothing is lost, and kept as it is otherwise.
-/

namespace StockScreen

inductive Affinity | text | real | integer
  deriving DecidableEq, Repr

def Affinity.isNumeric (a : Affinity) : Bool := a != .text

def isAsciiBlank (c : Char) : Bool :=
  c == ' ' || c == '\t' || c == '\n' || c == '\x0b' || c == '\x0c' || c == '\r'

def trimAscii (cs : List Char) : List Char :=
  ((cs.dropWhile isAsciiBlank).reverse.dropWhile isAsciiBlank).reverse

/-- The integer that a double stands for, if it is one strictly within 64 bits. -/
def exactInteger? (x : Float) : Option Int :=
  match Decimal.Reading.of x with
  | .finite b =>
    let (num, den) := Decimal.scaled b.mantissa b.exponent
    if num % den = 0 ∧ num / den < Nat.pow 2 63 then
      some (if b.negative then -(num / den : Nat) else (num / den : Nat))
    else none
  | _ => none

/-- The number that a text with blanks around it spells in decimal digits. -/
def spelledNumber? (s : String) : Option Cell :=
  let cs := trimAscii s.toList
  match Decimal.readInt64? (String.ofList cs) with
  | some n => some (.integer n)
  | none =>
    let (negative, cs) := Decimal.takeSign cs
    (Decimal.readScientific? cs).map fun d =>
      .real (if negative then -d.toFloatStepped else d.toFloatStepped)

namespace Cell

/-- A text becomes the number it spells. -/
def spelled : Cell → Cell
  | text s => (spelledNumber? s).getD (text s)
  | c => c

def written : Cell → Cell
  | integer n => text (Decimal.integerText n)
  | real x => text (Decimal.formatSignificant x)
  | c => c

/-- A real that is an integer becomes one. -/
def exact : Cell → Cell
  | real x => match exactInteger? x with
    | some n => integer n
    | none => real x
  | c => c

/-- An integer becomes a real; zero has no sign. -/
def widened : Cell → Cell
  | integer n => real (Float.ofInt n)
  | real x => real (if x == 0 then 0 else x)
  | c => c

/-- What is not a number at all counts as nothing. -/
def valid : Cell → Cell
  | real x => if x.isNaN then null else real x
  | c => c

end Cell

/-- What a column keeps of a cell. -/
def Affinity.keep : Affinity → Cell → Cell
  | text, c => c.valid.written
  | real, c => c.valid.spelled.widened
  | integer, c => c.valid.spelled.exact

end StockScreen

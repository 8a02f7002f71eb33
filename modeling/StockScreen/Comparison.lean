import StockScreen.Text.Basic

/-! # Comparisons

The five comparisons of a rule, their symbols and their labels.
-/

namespace StockScreen

inductive Comparison | greater | less | equal | atLeast | atMost
  deriving DecidableEq, Repr

namespace Comparison

def all : List Comparison := [greater, less, equal, atLeast, atMost]

def symbol : Comparison → String
  | greater => ">"
  | less => "<"
  | equal => "="
  | atLeast => ">="
  | atMost => "<="

def label : Comparison → String
  | greater => "greater than"
  | less => "less than"
  | equal => "equal to"
  | atLeast => "greater or equal"
  | atMost => "less or equal"

/-- The comparison with this symbol, or with this label in any letter case. -/
def read? (s : String) : Option Comparison :=
  let word := Text.trim s
  all.find? fun op => op.symbol == word || Text.sameLetters op.label word

/-- How far apart two numbers may be and still count as equal. -/
def tolerance : Float := 1e-9

/-- The comparison holds between two numbers; equality allows for the tolerance. -/
def holds : Comparison → Float → Float → Bool
  | greater, x, y => x > y
  | less, x, y => x < y
  | equal, x, y => (x - y).abs < tolerance
  | atLeast, x, y => x ≥ y
  | atMost, x, y => x ≤ y

/-- The comparison holds between two things in this order. -/
def admits : Comparison → Ordering → Bool
  | greater, o => o.isGT
  | less, o => o.isLT
  | equal, o => o.isEq
  | atLeast, o => o.isGE
  | atMost, o => o.isLE

end Comparison

end StockScreen

import StockScreen.Decimal.Format
import StockScreen.Decimal.Reader
import StockScreen.Text.Basic

/-! # Cells and rows

What a data store keeps in a column, and rows addressed by column names.
-/

namespace StockScreen

inductive Cell
  | null
  | integer (n : Int)
  | real (x : Float)
  | text (s : String)

namespace Cell

/-- The number in a cell; a text counts if it reads as one. -/
def number? : Cell → Option Float
  | null => none
  | integer n => some (Float.ofInt n)
  | real x => some x
  | text s => Decimal.readFloat? (Text.trim s)

/-- The text of a cell that is not null, for names and dates. -/
def text? : Cell → Option String
  | null => none
  | integer n => some (Decimal.integerText n)
  | real x => some (Decimal.format x)
  | text s => some s

def display (c : Cell) : String := c.text?.getD "NULL"

end Cell

abbrev Row := List (String × Cell)

namespace Row

/-- The text in a column, if the row has the column and it is not null. -/
def text? (row : Row) (column : String) : Option String := (row.lookup column).bind Cell.text?

def number? (row : Row) (column : String) : Option Float :=
  (row.lookup column).bind Cell.number?

end Row

end StockScreen

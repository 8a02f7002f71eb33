import StockScreen.Error
import StockScreen.Text.Basic

/-! # Lists of stock ids

Ids are divided by commas. None of them is blank, and none is repeated.
-/

namespace StockScreen

/-- The texts between commas, without blanks around them. -/
def commaTokens (s : String) : List String :=
  (s.toList.splitOn ',').map fun cs => String.ofList (Text.trimChars cs)

/-- Check tokens of `input` from the left; the ids in `seen` have been read before. -/
def checkStockIds (input : String) (seen : List String) :
    List String → Except ScreenError (List String)
  | [] => .ok []
  | id :: ids =>
    if id = "" then .error (.invalidRule s!"empty stock id in '{input}'")
    else if id ∈ seen then .error (.invalidRule s!"duplicate stock id '{id}'")
    else (checkStockIds input (id :: seen) ids).map (id :: ·)

def readStockIds (s : String) : Except ScreenError (List String) :=
  checkStockIds s [] (commaTokens s)

end StockScreen

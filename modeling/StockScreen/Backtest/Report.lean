import StockScreen.Backtest.Book
import StockScreen.Csv.Record

/-! # The report of a backtest

Closed trades, and after them the positions still open, as comma-separated
records. An open position has no exit.
-/

namespace StockScreen

/-- Prices have four places. -/
def priceText (x : Float) : String := Decimal.formatFixed 4 x

def Trade.fields (t : Trade) : List String :=
  [t.stock, t.entryDate, priceText t.entryPrice, t.exitDate, priceText t.exitPrice,
    Decimal.formatFixed 6 t.gain]

def Position.fields (p : Position) : List String :=
  [p.stock, p.entryDate, priceText p.entryPrice, "", "", ""]

def reportHeader : List String :=
  ["stock_id", "entry_date", "entry_price", "exit_date", "exit_price", "return_pct"]

def reportBytes (closed : List Trade) (held : List Position) : List UInt8 :=
  (reportHeader :: closed.map Trade.fields ++ held.map Position.fields).flatMap
    Csv.recordBytes

end StockScreen

import StockScreen.Query.Select
import StockScreen.Text.Basic
import StockScreen.Timeframe

/-! # Requests

Everything that is asked of a data store, and the statement that asks it.
-/

namespace StockScreen.Query

/-- A stock has to satisfy every timeframe of a rule, or any of them. -/
inductive CombineMode | intersect | union
  deriving DecidableEq, Repr

def CombineMode.separator : CombineMode → String
  | intersect => "\nINTERSECT\n"
  | union => "\nUNION\n"

/-- One statement of several. Blank ones are left out; of none the text is empty. -/
def CombineMode.combine (mode : CombineMode) (texts : List String) : String :=
  String.intercalate mode.separator (texts.filter fun s => Text.trim s != "")

inductive Request
  | tradingDates
  | stockIds
  | rawRows (date : String)
  | hourlyTimes (cutoff : String) (limit : Nat)
  | weeklyDates (anchor : String) (limit : Nat)
  | table (name : String)
  | matching (mode : CombineMode) (selects : List Select)
  deriving Repr

/-- The newest distinct times of a timeframe up to a bound. -/
def newestTimes (tf : Timeframe) (bound : String) (limit : Nat) : String :=
  let time := tf.timeColumn
  s!"SELECT DISTINCT {time} FROM " ++ tf.table .raw ++ s!" WHERE {time} <= " ++
    Text.quote '\'' bound ++ s!" ORDER BY {time} DESC LIMIT " ++
    String.ofList (Nat.toDigits 10 limit)

def Request.text : Request → String
  | tradingDates => "SELECT DISTINCT t FROM daily_deal ORDER BY t DESC"
  | stockIds => "SELECT DISTINCT stock_id FROM daily_deal ORDER BY stock_id"
  | rawRows date => "SELECT * FROM daily_deal WHERE t = " ++ Text.quote '\'' date
  | hourlyTimes cutoff limit => newestTimes .hourly cutoff limit
  | weeklyDates anchor limit => newestTimes .weekly anchor limit
  | table name => "SELECT * FROM " ++ name
  | matching mode selects => mode.combine (selects.map Select.text)

end StockScreen.Query

import StockScreen.Timeframe

/-! # Commands -/

namespace StockScreen

/-- What a list of indicators is about. -/
inductive CatalogName
  | timeframe (tf : Timeframe)
  | fundamentals
  deriving DecidableEq, Repr

def CatalogName.all : List CatalogName := Timeframe.all.map timeframe ++ [fundamentals]

def CatalogName.name : CatalogName → String
  | timeframe tf => tf.name
  | fundamentals => "fundamentals"

def CatalogName.read? (s : String) : Option CatalogName := all.find? fun c => c.name == s

/-- Which rule to screen by, on which date and among which stocks. -/
structure ScreenArguments where
  config : String
  rule : String
  date : Option String
  stocks : Option String
  union : Bool
  deriving DecidableEq, Repr

structure BacktestArguments where
  config : String
  buy : String
  sell : String
  start : Option String
  finish : Option String
  stocks : Option String
  output : Option String
  deriving DecidableEq, Repr

inductive Command
  | createTables (config : String)
  | importRows (config table file : String)
  | indicators (catalog : CatalogName)
  | explain (args : ScreenArguments)
  | screen (args : ScreenArguments)
  | fundamentals (config conditions : String) (stocks : Option String)
  | backtest (args : BacktestArguments)
  deriving DecidableEq, Repr

end StockScreen

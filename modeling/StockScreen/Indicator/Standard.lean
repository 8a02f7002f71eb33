import StockScreen.Indicator.Catalog

/-! # The standard indicators

The columns of the standard tables and their display names.
-/

namespace StockScreen.Standard

def rawColumns : List (String × String) :=
  [("closing price", "c"), ("opening price", "o"), ("volume", "v"), ("lowest price", "l"),
    ("highest price", "h")]

def movingColumns : List (String × String) :=
  [("ma5", "ma5"), ("ma5 deduction", "ma5_ded"), ("ma10", "ma10"),
    ("ma10 deduction", "ma10_ded"), ("ma20", "ma20"), ("ma20 deduction", "ma20_ded"),
    ("ma60", "ma60"), ("ma60 deduction", "ma60_ded"), ("ma120", "ma120"),
    ("ma120 deduction", "ma120_ded"), ("ema5", "ema5"), ("ema10", "ema10"), ("ema20", "ema20"),
    ("ema60", "ema60"), ("ema120", "ema120"), ("macd", "macd"), ("dif", "dif"), ("osc", "osc"),
    ("k", "k"), ("d", "d"), ("j", "j"), ("rsi5", "rsi5"), ("rsi10", "rsi10"),
    ("bollinger upper", "bollUb"), ("bollinger middle", "bollMa"), ("bollinger lower", "bollLb"),
    ("obv", "obv"), ("obv ma5", "obv_ma5"), ("obv ma10", "obv_ma10"), ("obv ma20", "obv_ma20"),
    ("obv ma60", "obv_ma60"), ("obv ema5", "obv_ema5"), ("obv ema10", "obv_ema10"),
    ("obv ema20", "obv_ema20"), ("obv ema60", "obv_ema60"), ("mfi", "mfi")]

/-- Derived columns that weeks do not have. -/
def trendColumns : List (String × String) :=
  [("conversion line", "tenkan"), ("base line", "kijun"), ("leading span a", "senkouA"),
    ("leading span b", "senkouB"), ("lagging span", "chikou"),
    ("positive directional", "di_plus"), ("negative directional", "di_minus"), ("adx", "adx")]

/-- Derived columns that only hours have. -/
def flowColumns : List (String × String) := [("cmf", "cmf"), ("cmf ema5", "cmf_ema5")]

def derivedColumns : Timeframe → List (String × String)
  | .hourly => movingColumns ++ trendColumns ++ flowColumns
  | .daily => movingColumns ++ trendColumns
  | .weekly => movingColumns

/-- Display name, column and table of what has no time. -/
def fundamentalColumns : List (String × String × String) :=
  [("price to earnings", "pe", "financial_metric"),
    ("price to book", "pb", "financial_metric"),
    ("dividend yield", "dividend_yield", "financial_metric"),
    ("gross profit margin", "gross_profit_margin", "financial_metric"),
    ("operating margin", "operating_margin", "financial_metric"),
    ("pre-tax profit margin", "pre_tax_profit_margin", "financial_metric"),
    ("roa", "roa", "financial_metric"),
    ("roe", "roe", "financial_metric"),
    ("book value per share", "book_value_per_share", "financial_metric"),
    ("eps last quarter", "eps_recent_q1", "recent_fundamental"),
    ("eps last year", "eps_recent_y1", "recent_fundamental"),
    ("revenue mom", "revenue_recent_m1_mom", "recent_fundamental"),
    ("revenue yoy", "revenue_recent_m1_yoy", "recent_fundamental"),
    ("revenue accumulated yoy", "revenue_recent_m1_yoy_acc", "recent_fundamental"),
    ("foreign holding ratio", "recent_w1_foreign_ratio", "investor_positions"),
    ("major holder ratio", "recent_w1_big_investor_ratio", "investor_positions")]

def timeframeCatalog (tf : Timeframe) : Catalog where
  scope := tf.name
  entries :=
    rawColumns.map (fun (name, column) => ⟨name, column, .timeframe .raw⟩) ++
      (derivedColumns tf).map (fun (name, column) => ⟨name, column, .timeframe .derived⟩)

def fundamentalCatalog : Catalog where
  scope := "fundamentals"
  entries := fundamentalColumns.map fun (name, column, table) => ⟨name, column, .fundamental table⟩

def catalogs : Catalogs where
  hourly := timeframeCatalog .hourly
  daily := timeframeCatalog .daily
  weekly := timeframeCatalog .weekly
  fundamentals := fundamentalCatalog

end StockScreen.Standard

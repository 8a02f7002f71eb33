import StockScreen.Text.Basic

/-! # Timeframes

Prices are kept by the hour, the day and the week. Each timeframe has a table
of raw prices and one of derived values, and words for the periods back from
the newest one.
-/

namespace StockScreen

inductive Timeframe | hourly | daily | weekly
  deriving DecidableEq, Repr

/-- The raw prices, or the values derived from them. -/
inductive TableKind | raw | derived
  deriving DecidableEq, Repr

/-- The column that identifies a stock, in every table. -/
def entityColumn : String := "stock_id"

namespace Timeframe

def all : List Timeframe := [hourly, daily, weekly]

def name : Timeframe → String
  | hourly => "hourly"
  | daily => "daily"
  | weekly => "weekly"

def table : Timeframe → TableKind → String
  | hourly, .raw => "hourly_deal"
  | hourly, .derived => "hourly_skills"
  | daily, .raw => "daily_deal"
  | daily, .derived => "daily_skills"
  | weekly, .raw => "weekly_deal"
  | weekly, .derived => "weekly_skills"

def timeColumn : Timeframe → String
  | hourly => "ts"
  | daily | weekly => "t"

def aliasSuffix : Timeframe → TableKind → String
  | hourly, .raw => "_hour_ago"
  | hourly, .derived => "_hour_ago_sk"
  | daily, .raw => "_day_ago"
  | daily, .derived => "_day_ago_sk"
  | weekly, .raw => "_week_ago"
  | weekly, .derived => "_week_ago_sk"

/-- The alias of a table shifted back by `offset` periods, such as `2_day_ago_sk`. -/
def aliasAt (tf : Timeframe) (offset : Nat) (kind : TableKind) : String :=
  String.ofList (Nat.toDigits 10 offset) ++ tf.aliasSuffix kind

/-- The label at place `k` means `k` periods back. -/
def offsetLabels : Timeframe → List String
  | hourly => ["now", "1 hour ago", "2 hours ago", "3 hours ago", "4 hours ago", "5 hours ago"]
  | daily => ["today", "yesterday", "2 days ago", "3 days ago", "4 days ago", "5 days ago"]
  | weekly =>
    ["this week", "last week", "2 weeks ago", "3 weeks ago", "4 weeks ago", "5 weeks ago"]

/-- The offset that a label names, whatever its case and the blanks around it. -/
def offsetOf? (tf : Timeframe) (label : String) : Option Nat :=
  tf.offsetLabels.findIdx? (Text.sameLetters · (Text.trim label))

structure Unknown where
  word : String
  deriving DecidableEq, Repr

def Unknown.message (u : Unknown) : String := "unknown timeframe: " ++ u.word

/-- The timeframe that a word names, whatever its case and the blanks around it. -/
def read (s : String) : Except Unknown Timeframe :=
  let word := Text.asciiLower (Text.trim s)
  if word = "hourly" ∨ word = "hour" then .ok hourly
  else if word = "daily" ∨ word = "day" then .ok daily
  else if word = "weekly" ∨ word = "week" then .ok weekly
  else .error ⟨word⟩

end Timeframe

end StockScreen

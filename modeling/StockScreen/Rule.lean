import StockScreen.Calendar
import StockScreen.Comparison
import StockScreen.Timeframe

/-! # Rules and settings

A rule lists prompts for each timeframe. A prompt compares an indicator some
periods back with another one, or with a literal. Settings say how far back
windows reach, and what becomes of unknown operators.
-/

namespace StockScreen

structure Prompt where
  leftOffset : String
  leftIndicator : String
  operator : String
  rightOffset : String
  /-- The name of an indicator, or a literal if the right offset says so. -/
  rightIndicator : String
  deriving DecidableEq, Repr

/-- What an offset label means: a number of periods back, a column without a time, or a literal. -/
inductive OffsetLabel
  | periods (offset : Nat)
  | other
  | customValue
  deriving DecidableEq, Repr

/-- The label of a literal, whatever its case and the blanks around it. -/
def isCustomValue (label : String) : Bool := Text.sameLetters (Text.trim label) "custom value"

def isOther (label : String) : Bool := Text.sameLetters (Text.trim label) "other"

def OffsetLabel.read? (tf : Timeframe) (label : String) : Option OffsetLabel :=
  if isOther label then some .other
  else if isCustomValue label then some .customValue
  else (tf.offsetOf? label).map .periods

def Prompt.isLiteral (p : Prompt) : Bool := isCustomValue p.rightOffset

structure Rule where
  hourly : List Prompt := []
  daily : List Prompt := []
  weekly : List Prompt := []
  deriving DecidableEq, Repr

namespace Rule

def prompts (rule : Rule) : Timeframe → List Prompt
  | .hourly => rule.hourly
  | .daily => rule.daily
  | .weekly => rule.weekly

def isEmpty (rule : Rule) : Bool := Timeframe.all.all fun tf => (rule.prompts tf).isEmpty

/-- The timeframes that have prompts. -/
def active (rule : Rule) : List Timeframe :=
  Timeframe.all.filter fun tf => !(rule.prompts tf).isEmpty

end Rule

structure SavedRule where
  name : String
  conditions : Rule := {}
  deriving DecidableEq, Repr

/-- Compares a value without a time with a number, or with another value of its table. -/
structure FundamentalPrompt where
  indicator : String
  operator : String
  value : String
  deriving DecidableEq, Repr

/-- What becomes of an operator that is none of the five comparisons: an error, or equality. -/
inductive OperatorPolicy | strict | fallback
  deriving DecidableEq, Repr

def Settings.defaultCutoff : Calendar.Clock := ⟨14, 0, 0⟩

structure Settings where
  /-- How many trading dates a daily window holds. -/
  dailyWindow : Nat := 6
  /-- The time of day up to which the hours of the anchor date count. -/
  cutoff : Calendar.Clock := Settings.defaultCutoff
  hourlyLookback : Nat := 24
  /-- How many dates are candidates of a weekly window. -/
  weeklyLookback : Nat := 20
  weeklyCount : Nat := 4
  /-- The least number of days between two dates of a weekly window. -/
  weeklyGap : Int := 6
  policy : OperatorPolicy := .strict
  deriving DecidableEq, Repr

end StockScreen

import StockScreen.Config.Ini
import StockScreen.Error
import StockScreen.Rule
import StockScreen.Text.Utf8

/-! # Settings from a configuration

The section `screen` holds the settings. Each is checked against its bounds,
and what is missing has its default.
-/

namespace StockScreen.Config

def screenSection : String := "screen"

def maxDailyWindow : Int := 64

def invalid (key reason : String) : ScreenError := .configInvalid screenSection key reason

def positive (ini : Ini) (key : String) (default : Nat) : Except ScreenError Nat :=
  let n := ini.getInt screenSection key default
  if n < 1 then .error (invalid key s!"{key} must be at least 1") else .ok n.toNat

def bounded (ini : Ini) (key : String) (default : Nat) (greatest : Int) :
    Except ScreenError Nat :=
  let n := ini.getInt screenSection key default
  if 1 ≤ n ∧ n ≤ greatest then .ok n.toNat
  else .error (invalid key s!"{key} must be between 1 and {greatest}")

def cutoff (ini : Ini) (default : Calendar.Clock) : Except ScreenError Calendar.Clock :=
  match ini.get? screenSection "hourly_cutoff" with
  | none => .ok default
  | some s =>
    match Calendar.Clock.read? (Text.trim s) with
    | some t => .ok t
    | none => .error (invalid "hourly_cutoff" "hourly_cutoff must be HH:MM:SS")

def policy (ini : Ini) : OperatorPolicy :=
  if ini.getBool screenSection "operator_fallback" false then .fallback else .strict

def settings (ini : Ini) : Except ScreenError Settings := do
  let defaults : Settings := {}
  let dailyWindow ← bounded ini "daily_window" defaults.dailyWindow maxDailyWindow
  let cutoff ← cutoff ini defaults.cutoff
  let hourlyLookback ← positive ini "hourly_lookback" defaults.hourlyLookback
  let weeklyLookback ← positive ini "weekly_lookback" defaults.weeklyLookback
  let weeklyCount ← positive ini "weekly_count" defaults.weeklyCount
  let weeklyGap ← positive ini "weekly_min_gap_days" defaults.weeklyGap.toNat
  if weeklyLookback < weeklyCount then
    throw (invalid "weekly_count" "weekly_count must not exceed weekly_lookback")
  else
    pure ⟨dailyWindow, cutoff, hourlyLookback, weeklyLookback, weeklyCount, weeklyGap, policy ini⟩

structure StoreConfig where
  path : String
  /-- The number of connections, of 32 bits. -/
  connections : UInt32
  deriving DecidableEq, Repr

def storeConfig (ini : Ini) : Except ScreenError StoreConfig :=
  match ini.nonEmpty? "sqlite" "path" with
  | none => .error (.configMissing "sqlite" "path")
  | some path => .ok ⟨path, (max (ini.getInt "sqlite" "pool_size" 4) 1).toNat.toUInt32⟩

def ofText (s : String) : Except ScreenError Ini :=
  (readIni s).mapError fun f => .configParse "<inline>" f.message

/-- The configuration in a file, given its bytes or why there are none. -/
def ofFile (name : String) (content : Except FileFault (List UInt8)) : Except ScreenError Ini :=
  let fail (reason : String) : ScreenError :=
    .configParse name s!"couldn't read {name}: {reason}"
  match readText content with
  | .error f => .error (fail f.message)
  | .ok s => (readIni s).mapError fun f => fail f.message

end StockScreen.Config

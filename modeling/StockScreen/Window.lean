import StockScreen.Calendar
import StockScreen.Text.Basic
import StockScreen.Timeframe

/-! # Date windows

The dates that offsets refer to, newest first. An offset beyond the window has
no date.
-/

namespace StockScreen

/-- The dates at offsets 0, 1, 2, … -/
structure Window where
  dates : List String
  deriving DecidableEq, Repr

namespace Window

/-- The window of the distinct dates among the given ones. -/
def ofDates (dates : List String) : Window := ⟨descending dates⟩

def empty : Window := ⟨[]⟩

def dateAt? (w : Window) (offset : Nat) : Option String := w.dates[offset]?

def anchor? (w : Window) : Option String := w.dateAt? 0

/-- Up to `size` dates of a descending feed, from the anchor back. -/
def daily (feed : List String) (anchor : String) (size : Nat) : Window :=
  .ofDates ((feed.dropWhile fun date => decide (anchor < date)).take size)

end Window

/-- The dates picked from the candidates of a weekly window, and those that are no dates. -/
structure Weeks where
  kept : List String
  unreadable : List String
  deriving DecidableEq, Repr

/-- The bytes of a text in a list: its place, its length and its room, of 64 bits each. -/
def textBytes : Nat := 3 * 8

/-- The most bytes for which room can be made at once. -/
def greatestRoom : Nat := Nat.pow 2 63 - 1

namespace Weeks

def keep (date : String) (w : Weeks) : Weeks := { w with kept := date :: w.kept }

def reject (text : String) (w : Weeks) : Weeks := { w with unreadable := text :: w.unreadable }

/-- The date lies at least `gap` days before the last one kept, if there is one. -/
def farEnough (gap : Int) (last : Option Calendar.Date) (date : Calendar.Date) : Bool :=
  match last with
  | none => true
  | some later => gap ≤ Calendar.daysBetween date later

/-- Go through the candidates and keep each date far enough from the last one kept, until `count`
dates are kept. -/
def pickAfter (gap : Int) (last : Option Calendar.Date) : Nat → List String → Weeks
  | 0, _ | _, [] => ⟨[], []⟩
  | count + 1, text :: texts =>
    match Calendar.Date.read? (Text.trim text) with
    | none => (pickAfter gap last (count + 1) texts).reject text
    | some date =>
      if farEnough gap last date then (pickAfter gap (some date) count texts).keep text
      else pickAfter gap last (count + 1) texts

def pick (gap : Int) (count : Nat) (candidates : List String) : Weeks :=
  pickAfter gap none count candidates

/-- The pick after room for `count` texts has been made. Without that room there is no result, and
the program ends. -/
def select? (gap : Int) (count : Nat) (candidates : List String) : Option Weeks :=
  if textBytes * count ≤ greatestRoom then some (pick gap count candidates) else none

end Weeks

structure Windows where
  hourly : Option Window := none
  daily : Option Window := none
  weekly : Option Window := none
  deriving DecidableEq, Repr

namespace Windows

def get? (ws : Windows) : Timeframe → Option Window
  | .hourly => ws.hourly
  | .daily => ws.daily
  | .weekly => ws.weekly

def insert (ws : Windows) (tf : Timeframe) (w : Window) : Windows :=
  match tf with
  | .hourly => { ws with hourly := some w }
  | .daily => { ws with daily := some w }
  | .weekly => { ws with weekly := some w }

end Windows

end StockScreen

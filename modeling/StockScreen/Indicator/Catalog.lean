import StockScreen.Error

/-! # Indicators

Display names for the columns of the data store. A catalog holds the
indicators of one scope; a name is looked up without the blanks around it.
-/

namespace StockScreen

/-- Where the column of an indicator is: in a table of its timeframe, or in one without a time. -/
inductive Home
  | timeframe (kind : TableKind)
  | fundamental (table : String)
  deriving DecidableEq, Repr

structure Indicator where
  name : String
  column : String
  home : Home
  deriving DecidableEq, Repr

def Indicator.fundamentalTable? (i : Indicator) : Option String :=
  match i.home with
  | .fundamental table => some table
  | .timeframe _ => none

structure Catalog where
  scope : String
  entries : List Indicator

namespace Catalog

def firstRepeated (seen : List String) : List String → Option String
  | [] => none
  | x :: xs => if x ∈ seen then some x else firstRepeated (x :: seen) xs

/-- A catalog of entries with distinct names. -/
def ofEntries (scope : String) (entries : List Indicator) : Except ScreenError Catalog :=
  match firstRepeated [] (entries.map Indicator.name) with
  | some name => .error (.invalidRule s!"duplicate indicator '{name}' in {scope} catalog")
  | none => .ok ⟨scope, entries⟩

def find? (c : Catalog) (name : String) : Option Indicator :=
  c.entries.find? (·.name == Text.trim name)

def lookup (c : Catalog) (name : String) : Except ScreenError Indicator :=
  match c.find? name with
  | some entry => .ok entry
  | none => .error (.unknownIndicator c.scope name)

def names (c : Catalog) : List String := c.entries.map Indicator.name

end Catalog

/-- One catalog for each timeframe, and one for what has no time. -/
structure Catalogs where
  hourly : Catalog
  daily : Catalog
  weekly : Catalog
  fundamentals : Catalog

def Catalogs.timeframe (cs : Catalogs) : Timeframe → Catalog
  | .hourly => cs.hourly
  | .daily => cs.daily
  | .weekly => cs.weekly

end StockScreen

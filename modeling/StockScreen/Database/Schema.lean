import StockScreen.Database.Affinity
import StockScreen.Indicator.Standard
import StockScreen.Text.Basic
import StockScreen.Text.Quoted

/-! # Tables of the database

Each timeframe has a table of prices and one of derived values, with a row for
each stock and time. The tables without a time have a row for each stock.
-/

namespace StockScreen

inductive Table
  | timeframe (tf : Timeframe) (kind : TableKind)
  | fundamental (name : String)
  | stock
  deriving DecidableEq, Repr

structure Column where
  name : String
  affinity : Affinity
  deriving DecidableEq, Repr

namespace Table

def name : Table → String
  | timeframe tf kind => tf.table kind
  | fundamental name => name
  | stock => "stock"

def all : List Table :=
  Timeframe.all.flatMap (fun tf => [timeframe tf .raw, timeframe tf .derived]) ++
    (ascending (Standard.fundamentalColumns.map fun (_, _, table) => table)).map fundamental ++
    [stock]

def find? (name : String) : Option Table := all.find? fun t => t.name == name

def key : Table → List String
  | timeframe tf _ => [entityColumn, tf.timeColumn]
  | fundamental _ | stock => [entityColumn]

/-- Every row needs its whole key. -/
def keyRequired : Table → Bool
  | timeframe .. => true
  | fundamental _ | stock => false

def values : Table → List Column
  | timeframe _ .raw =>
    [⟨"c", .real⟩, ⟨"o", .real⟩, ⟨"h", .real⟩, ⟨"l", .real⟩, ⟨"v", .integer⟩]
  | timeframe tf .derived => (Standard.derivedColumns tf).map fun (_, column) => ⟨column, .real⟩
  | fundamental name =>
    (Standard.fundamentalColumns.filter fun (_, _, table) => table == name).map
      fun (_, column, _) => ⟨column, .real⟩
  | stock => [⟨"stock_name", .text⟩, ⟨"industry_group", .text⟩, ⟨"market_type", .text⟩]

def columns (t : Table) : List Column := t.key.map (⟨·, .text⟩) ++ t.values

def columnNames (t : Table) : List String := t.columns.map Column.name

def affinity? (t : Table) (column : String) : Option Affinity :=
  (t.columns.find? fun c => c.name == column).map Column.affinity

/-- The names of the values are written between quotes. -/
def quotesNames : Table → Bool
  | timeframe _ .derived | fundamental _ => true
  | timeframe _ .raw | stock => false

end Table

def Affinity.keyword : Affinity → String
  | text => "TEXT"
  | real => "REAL"
  | integer => "INTEGER"

def commaSeparated (names : List String) : String := String.intercalate ", " names

namespace Table

def valueDeclaration (t : Table) (c : Column) : String :=
  (if t.quotesNames then Text.quote '"' c.name else c.name) ++ " " ++ c.affinity.keyword

def declarations (t : Table) : List String :=
  let values := t.values.map t.valueDeclaration
  if t.keyRequired then
    t.key.map (· ++ " TEXT NOT NULL") ++ values ++ ["PRIMARY KEY (" ++ commaSeparated t.key ++ ")"]
  else t.key.map (· ++ " TEXT PRIMARY KEY") ++ values

def createStatement (t : Table) : String :=
  "CREATE TABLE IF NOT EXISTS " ++ t.name ++ " (\n    " ++
    String.intercalate ",\n    " t.declarations ++ "\n);\n"

/-- Prices are also found by their time. -/
def indexStatement : Table → String
  | timeframe tf .raw =>
    let table := tf.table .raw
    let time := tf.timeColumn
    s!"CREATE INDEX IF NOT EXISTS idx_{table}_{time} ON {table}({time});\n"
  | _ => ""

end Table

def schemaText : String :=
  String.join (Table.all.map fun t => t.createStatement ++ t.indexStatement)

/-- The names of the columns of a table, in ascending order. -/
def tableColumns? (name : String) : Option (List String) :=
  (Table.find? name).map fun t => ascending t.columnNames

end StockScreen

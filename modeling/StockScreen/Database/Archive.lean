import StockScreen.Csv.Record
import StockScreen.Database.Insert

/-! # Databases in files

A database is kept as a mark and comma-separated records. A record of a table's
name alone creates the table, and the records after it are its rows. An empty
file is a database without tables.
-/

namespace StockScreen

/-- A cell as a text that begins with a letter for its kind; reals are kept as their bits. -/
def Cell.encode : Cell → String
  | null => "n"
  | integer n => "i" ++ Decimal.integerText n
  | real x => "r" ++ Decimal.integerText x.toBits.toNat
  | text s => "t" ++ s

def Cell.decode? (s : String) : Option Cell :=
  match s.toList with
  | ['n'] => some .null
  | 'i' :: cs => (Decimal.readInt? cs).map .integer
  | 'r' :: cs => (Decimal.readNat? cs).map fun n => .real (Float.ofBits n.toUInt64)
  | 't' :: cs => some (.text (String.ofList cs))
  | _ => none

namespace Database

def rowFields (name : String) (row : Row) : List String :=
  name :: row.map fun (_, cell) => cell.encode

/-- The mark at the start of a database. Its first byte is in no text. -/
def mark : List UInt8 := 0xFF :: Utf8.encode "database\n".toList

def archive (db : Database) : List UInt8 :=
  mark ++ db.contents.flatMap fun (name, rows) =>
    Csv.recordBytes [name] ++ rows.flatMap fun row => Csv.recordBytes (rowFields name row)

/-- Tables that have been read, and rows whose table is named in a record before them. -/
structure Restored where
  contents : List (String × List Row) := []
  rows : List Row := []

def Restored.add? (fields : List String) (r : Restored) : Option Restored :=
  match fields with
  | [] => none
  | [name] => some ⟨(name, r.rows) :: r.contents, []⟩
  | name :: cells => do
    let t ← Table.find? name
    let cells ← cells.mapM Cell.decode?
    pure { r with rows := t.columnNames.zip cells :: r.rows }

/-- The database in the records of a file, if they are all in order. -/
def restoreRecords? (bytes : List UInt8) : Option Database := do
  let records ← (Csv.recordsFrom .first bytes).mapM Csv.Record.texts?
  let r ← records.foldrM Restored.add? {}
  if r.rows.isEmpty then pure ⟨r.contents⟩ else none

def restore? (bytes : List UInt8) : Option Database :=
  if bytes = [] then some {}
  else if bytes.take mark.length = mark then restoreRecords? (bytes.drop mark.length)
  else none

end Database

end StockScreen

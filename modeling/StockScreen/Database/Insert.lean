import StockScreen.Database.Schema
import StockScreen.Session

/-! # Writing rows

A row replaces the one with the same key, and is refused if it has a column
that its table does not have, or lacks a part of the key. Of a list of rows
either all are written or none.
-/

namespace StockScreen

structure Database where
  contents : List (String × List Row) := []

namespace Database

def rows? (db : Database) (name : String) : Option (List Row) := db.contents.lookup name

/-- Create the tables that do not exist yet, without rows. -/
def createTables (db : Database) : Database where
  contents := db.contents ++
    (Table.all.filter fun t => (db.rows? t.name).isNone).map fun t => (t.name, [])

def setRows (db : Database) (name : String) (rows : List Row) : Database where
  contents := db.contents.map fun entry => if entry.1 = name then (name, rows) else entry

end Database

namespace Table

def unknownColumn? (t : Table) (row : Row) : Option String :=
  (ascending (row.map Prod.fst)).find? fun c => !t.columnNames.contains c

/-- The row that the table keeps; columns that are not given are null. -/
def keep (t : Table) (row : Row) : Row :=
  t.columns.map fun c => (c.name, c.affinity.keep ((row.lookup c.name).getD .null))

/-- The texts of the key, unless a part of it is missing. -/
def key? (t : Table) (row : Row) : Option (List String) := t.key.mapM row.text?

def missingKey? (t : Table) (row : Row) : Option String :=
  if t.keyRequired then t.key.find? fun c => (row.text? c).isNone else none

/-- Both rows have the same key, and no part of it is missing. -/
def sameKey (t : Table) (a b : Row) : Bool := (t.key? a).isSome && t.key? a == t.key? b

/-- Put a kept row in the place of the one with the same key. -/
def put (t : Table) (rows : List Row) (row : Row) : List Row :=
  rows.filter (fun r => !t.sameKey row r) ++ [row]

def unknownColumn (t : Table) (column : String) : StoreFault :=
  .query s!"table '{t.name}' has no column '{column}'"

/-- A statement cannot name no column at all. -/
def noColumn (t : Table) : StoreFault :=
  let name := t.name
  let statement := s!"INSERT OR REPLACE INTO {name} () VALUES ()"
  let offset := Decimal.integerText (25 + name.utf8ByteSize)
  .query ("near \")\": syntax error in " ++ statement ++ " at offset " ++ offset)

def missingKey (t : Table) (column : String) : StoreFault :=
  .query s!"NOT NULL constraint failed: {t.name}.{column}"

/-- The rows of the table, if it exists and a statement can write the columns of a row. -/
def openFor (t : Table) (rows? : Option (List Row)) (row : Row) : Except StoreFault (List Row) := do
  if let some c := t.unknownColumn? row then throw (t.unknownColumn c)
  if row.isEmpty then throw t.noColumn
  match rows? with
  | none => throw (.query s!"no such table: {t.name}")
  | some rows => pure rows

/-- The rows of the table with one more row written. -/
def write (t : Table) (rows? : Option (List Row)) (row : Row) :
    Except StoreFault (List Row) := do
  let rows ← t.openFor rows? row
  let row := t.keep row
  if let some c := t.missingKey? row then throw (t.missingKey c)
  pure (t.put rows row)

end Table

namespace Database

def writeRow (t : Table) (row : Row) : Session Database Unit := fun db =>
  match t.write (db.rows? t.name) row with
  | .ok rows => (pure (), db.setRows t.name rows)
  | .error fault => (.fail (.store fault), db)

/-- Write rows one after the other, up to the first that is refused. -/
def writeRows (t : Table) : List Row → Session Database Unit
  | [] => pure ()
  | row :: rows => do
    writeRow t row
    writeRows t rows

/-- Write all rows to the table called `name`, or none; their number. -/
def insert (name : String) (rows : List Row) : Session Database Nat :=
  match Table.find? name with
  | none => .fail (.store (.query s!"unknown table '{name}'"))
  | some t => do
    .atomically (writeRows t rows)
    pure rows.length

def readOnly : StoreFault := .query "attempt to write a readonly database"

/-- Write rows to a database that may only be read, which the first row shows. -/
def refuse (name : String) (rows : List Row) : Session Database Nat := fun db =>
  match Table.find? name, rows with
  | none, _ => insert name rows db
  | some _, [] => (pure 0, db)
  | some t, row :: _ =>
    match t.openFor (db.rows? t.name) row with
    | .error fault => (.fail (.store fault), db)
    | .ok _ => (.fail (.store readOnly), db)

end Database

end StockScreen

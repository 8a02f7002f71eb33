import StockScreen.Database.Evaluate
import StockScreen.Query.OpenQuote

/-! # The database as a data store

Each request is answered from the rows of the tables, which it leaves as they
are. A request whose statement is cut off is refused.
-/

namespace StockScreen

/-- The cells are both null, or compare as equal. -/
def Cell.same (a b : Cell) : Bool :=
  match a, b with
  | .null, .null => true
  | a, b => a.order? b == some .eq

def distinctCells (cs : List Cell) : List Cell := cs.eraseDupsBy Cell.same

open Query

/-- The cells of several statements as sets, combined from left to right. -/
def Query.CombineMode.merge (mode : CombineMode) (xs ys : List Cell) : List Cell :=
  match mode with
  | intersect => distinctCells (xs.filter fun x => ys.any x.same)
  | union => distinctCells (xs ++ ys)

namespace Database

def columnTexts (db : Database) (name column : String) : Except StoreFault (List String) := do
  let (_, rows) ← db.tableRows name
  pure (rows.filterMap (Row.text? · column))

def textRows (column : String) (texts : List String) : List Row :=
  texts.map fun s => [(column, .text s)]

/-- Limits are integers of 64 bits. -/
def limited (limit : Nat) (rows : List Row) : Except StoreFault (List Row) :=
  if limit < Nat.pow 2 63 then .ok (rows.take limit) else .error (.query "datatype mismatch")

/-- The newest distinct times of a timeframe up to a bound. -/
def newestTimes (db : Database) (tf : Timeframe) (bound : String) (limit : Nat) :
    Except StoreFault (List Row) := do
  let times ← db.columnTexts (tf.table .raw) tf.timeColumn
  limited limit (textRows tf.timeColumn (descending (times.filter (· ≤ bound))))

def selectAll (db : Database) (mode : CombineMode) : List Select → Except StoreFault (List Cell)
  | [] => .ok []
  | s :: more => do
    more.foldlM (fun cells s => do pure (mode.merge cells (← db.select s))) (← db.select s)

def rowsFor (db : Database) : Request → Except StoreFault (List Row)
  | .tradingDates => do
    let days ← db.columnTexts "daily_deal" "t"
    pure (textRows "t" (descending days))
  | .stockIds => do
    let ids ← db.columnTexts "daily_deal" entityColumn
    pure (textRows entityColumn (ascending ids))
  | .rawRows date => do
    let (_, rows) ← db.tableRows "daily_deal"
    pure (rows.filter fun row => row.text? "t" == some date)
  | .hourlyTimes cutoff limit => db.newestTimes .hourly cutoff limit
  | .weeklyDates anchor limit => db.newestTimes .weekly anchor limit
  | .table name => do
    let (_, rows) ← db.tableRows name
    pure rows
  | .matching mode selects => do
    let heading := (selects.head?.map Select.heading).getD entityColumn
    let cells ← db.selectAll mode selects
    pure (cells.map fun cell => [(heading, cell)])

def answer (db : Database) (r : Request) : Except StoreFault (List Row) :=
  match openQuote? r.text with
  | some t => .error (.query (t.message r.text))
  | none => db.rowsFor r

end Database

/-- A database whose tables do not change. -/
def databaseStore : DataStore Database where
  answer r := fun db => (db.answer r, db)

end StockScreen

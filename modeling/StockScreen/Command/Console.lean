import StockScreen.Command.Workspace
import StockScreen.Database.Archive
import StockScreen.Database.Location
import StockScreen.Database.Store

/-! # What commands work on

A workspace, the database that a command has opened, and the lines that it
writes.
-/

namespace StockScreen

/-- An open database. Changes are kept in its file, if it has one. -/
structure Connection where
  place : Option Place := none
  writable : Bool := true
  /-- The tables, unless the file is no database. -/
  content : Option Database := some {}

namespace Connection

def notDatabase : StoreFault := .query "file is not a database"

def answer (c : Connection) (r : Query.Request) : Except StoreFault (List Row) :=
  match c.content with
  | some db => db.answer r
  | none => .error notDatabase

/-- Open a database. A file that may be created is empty at first. -/
def connect? (w : Workspace) : Location → Option (Connection × Workspace)
  | .temporary => some ({}, w)
  | .file path access immutable => do
    -- Names are put together without a look at the folders on the way.
    let p := (Path.ofText path).place
    let writable := !immutable && access != .readOnly
    if w.hasFolder p then none
    else match w.bytes? p with
      | some bytes => some (⟨some p, writable, Database.restore? bytes⟩, w)
      | none =>
        if access = .create && w.hasFolder p.tail then
          some (⟨some p, writable, some {}⟩, w.put p [])
        else none

end Connection

structure Console where
  workspace : Workspace
  connection : Connection := {}
  printed : List String := []
  reported : List String := []

namespace Console

def printLine (line : String) : Session Console Unit :=
  fun c => (pure (), { c with printed := c.printed ++ [line] })

/-- Write a line that is not part of the result. -/
def report (line : String) : Session Console Unit :=
  fun c => (pure (), { c with reported := c.reported ++ [line] })

def printLines (lines : List String) : Session Console Unit :=
  fun c => (pure (), { c with printed := c.printed ++ lines })

def fetch (path : String) : Session Console (Except FileFault (List UInt8)) :=
  .inspect fun c => c.workspace.read path

def write (path : String) (bytes : List UInt8) : Session Console Unit := fun c =>
  match c.workspace.write path bytes with
  | .ok w => (pure (), { c with workspace := w })
  | .error fault => (.fail (.fileAccess fault.message), c)

def unreachable (name : String) : StoreFault :=
  .access s!"timed out waiting for connection: unable to open database file: {name}"

def openDatabase (name : String) : Session Console Unit := fun c =>
  match (Location.read? name).bind (Connection.connect? c.workspace) with
  | some (connection, w) => (pure (), { c with connection := connection, workspace := w })
  | none => (.fail (.store (unreachable name)), c)

def keep (db : Database) (c : Console) : Console :=
  let w := match c.connection.place with
    | none => c.workspace
    | some p => c.workspace.put p db.archive
  { c with connection := { c.connection with content := some db }, workspace := w }

/-- A session on the tables of the open database, which are kept if it succeeds. -/
def onDatabase {α : Type} (x : Session Database α) : Session Console α := fun c =>
  match c.connection.content with
  | none => (.fail (.store Connection.notDatabase), c)
  | some db =>
    let (r, db) := x db
    match r.outcome with
    | .ok _ => (r, c.keep db)
    | .error _ => (r, c)

def createTables : Session Console Unit := fun c =>
  match c.connection.content with
  | none => (.fail (.store Connection.notDatabase), c)
  | some db =>
    if Table.all.all fun t => (db.rows? t.name).isSome then (pure (), c)
    else if c.connection.writable then (pure (), c.keep db.createTables)
    else (.fail (.store Database.readOnly), c)

/-- Write all rows to a table, or none; their number. -/
def insert (table : String) (rows : List Row) : Session Console Nat := fun c =>
  if c.connection.writable then onDatabase (Database.insert table rows) c
  else
    let (r, _) := Database.refuse table rows (c.connection.content.getD {})
    (r, c)

def store : DataStore Console where
  answer r := fun c => (c.connection.answer r, c)

end Console

end StockScreen

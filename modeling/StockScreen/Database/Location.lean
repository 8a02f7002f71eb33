import StockScreen.Text.Basic
import StockScreen.Text.Utf8

/-! # Where databases are

A database is named by the path of its file, or by an address that begins with
`file:` and may have options behind a question mark.
-/

namespace StockScreen

inductive Access | readOnly | readWrite | create | memory
  deriving DecidableEq, Repr

namespace Access

def read? (s : String) : Option Access :=
  match s with
  | "ro" => some readOnly
  | "rw" => some readWrite
  | "rwc" => some create
  | "memory" => some memory
  | _ => none

def reach : Access → Nat
  | readOnly => 1
  | readWrite => 2
  | create => 6
  | memory => 128

/-- An option may not widen the access that is given, but may ask for memory. -/
def permits (given asked : Access) : Bool := asked = memory || asked.reach ≤ given.reach

end Access

/-- A database that is kept in a file, or one that is given up at the end. -/
inductive Location
  | temporary
  | file (path : String) (access : Access) (immutable : Bool)
  deriving DecidableEq, Repr

namespace Location

def hexDigit? (b : UInt8) : Option UInt8 :=
  if 48 ≤ b ∧ b ≤ 57 then some (b - 48)
  else if 65 ≤ b ∧ b ≤ 70 then some (b - 55)
  else if 97 ≤ b ∧ b ≤ 102 then some (b - 87)
  else none

/-- Replace a percent sign and two hexadecimal digits by the byte that they stand for. A byte zero
is the end. -/
def unescape : List UInt8 → List UInt8
  | 37 :: a :: b :: rest =>
    match hexDigit? a, hexDigit? b with
    | some m, some n => if m = 0 ∧ n = 0 then [] else (16 * m + n) :: unescape rest
    | _, _ => 37 :: unescape (a :: b :: rest)
  | b :: rest => b :: unescape rest
  | [] => []

def cutAt (b : UInt8) (bs : List UInt8) : List UInt8 × List UInt8 :=
  (bs.takeWhile (· != b), (bs.dropWhile (· != b)).drop 1)

def partsBetween (b : UInt8) : List UInt8 → List (List UInt8)
  | [] => [[]]
  | c :: cs =>
    match partsBetween b cs with
    | [] => [[c]]
    | part :: parts => if c = b then [] :: part :: parts else (c :: part) :: parts

def textOf? (bs : List UInt8) : Option String :=
  (Utf8.decode (unescape bs)).toOption.map String.ofList

/-- The names and values of the options. Options without a name are left out. -/
def options? (bs : List UInt8) : Option (List (String × String)) := do
  let options ← (partsBetween 38 bs).mapM fun part => do
    let (name, value) := cutAt 61 part
    pure (← textOf? name, ← textOf? value)
  pure (options.filter fun o => o.1 != "")

/-- The access that the options leave, if they are all known. -/
def access? (given : Access) : List (String × String) → Option Access
  | [] => some given
  | ("mode", value) :: rest => do
    let asked ← Access.read? value
    if given.permits asked then access? asked rest else none
  | ("cache", value) :: rest =>
    if value = "shared" ∨ value = "private" then access? given rest else none
  | _ :: rest => access? given rest

/-- The ways to reach a file that are known; in one of them nothing is kept. -/
def fileSystems : List (String × Bool) :=
  [("unix", true), ("unix-none", true), ("unix-dotfile", true), ("unix-excl", true),
   ("memdb", false)]

/-- A number that is not zero, or a word for yes. -/
def isYes (s : String) : Bool :=
  match s.toList.takeWhile Char.isDigit with
  | [] => ["on", "yes", "true"].contains (Text.asciiLower s)
  | ds =>
    let n := ds.foldl (fun n d => 10 * n + (d.toNat - '0'.toNat)) 0
    n < Nat.pow 2 31 && n % 256 != 0

/-- The path behind the scheme; the only host is the local one. -/
def localPath? (bs : List UInt8) : Option (List UInt8) :=
  match bs with
  | 47 :: 47 :: rest =>
    let host := rest.takeWhile (· != 47)
    if host = [] ∨ host = Utf8.encode "localhost".toList then some (rest.dropWhile (· != 47))
    else none
  | _ => some bs

def ofPath (path : String) (access : Access) (immutable : Bool) : Location :=
  if path = "" ∨ path = ":memory:" ∨ access = .memory then .temporary
  else .file path access immutable

/-- The database at an address without its scheme, if it can be reached. -/
def readAddress? (bs : List UInt8) : Option Location := do
  let bs ← localPath? bs
  let (path, query) := cutAt 63 (bs.takeWhile (· != 35))
  let path ← textOf? path
  let options ← options? query
  let access ← access? .create options
  let kept ← match options.reverse.lookup "vfs" with
    | none => some true
    | some name => fileSystems.lookup name
  if kept then pure (ofPath path access (isYes ((options.lookup "immutable").getD "")))
  else pure .temporary

/-- The database that a text names, if it can be reached. -/
def read? (s : String) : Option Location :=
  if s.toList.contains '\x00' then none
  else match s.toList with
    | 'f' :: 'i' :: 'l' :: 'e' :: ':' :: cs => readAddress? (Utf8.encode cs)
    | _ => some (ofPath s .create false)

end Location

end StockScreen

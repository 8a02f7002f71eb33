import StockScreen.Text.Utf8

/-! # Folders and files

Where commands read and write. A path is followed from folder to folder,
starting in the working folder or at the root.
-/

namespace StockScreen

/-- The names that lead to a file or folder, the last one first. The working folder has none; the
folders above it are called `..`, and the root is called `/`. -/
abbrev Place := List String

namespace Place

def root : Place := ["/"]

def up (p : Place) : Place :=
  if p = root then root
  else match p with
    | [] | ".." :: _ => ".." :: p
    | _ :: p => p

def enter (p : Place) (name : String) : Place :=
  if name = "" ∨ name = "." then p
  else if name = ".." then p.up
  else name :: p

/-- The working folder, a folder above it, or the root. -/
def isOuter (p : Place) : Bool := p = root || p.all (· == "..")

def ancestors : Place → List Place
  | [] => []
  | name :: p => (name :: p) :: ancestors p

end Place

/-- A path as the place where it begins and the names in it. -/
structure Path where
  start : Place
  names : List String
  deriving DecidableEq, Repr

namespace Path

def ofText (s : String) : Path :=
  match s.splitOn "/" with
  | "" :: names => ⟨Place.root, names⟩
  | names => ⟨[], names⟩

/-- Where the names lead if all folders on the way are there. -/
def place (p : Path) : Place := p.names.foldl Place.enter p.start

/-- The paths to what lies on the way to a file or folder, and at last to itself. -/
def leadingParts (s : String) : List String :=
  let names := s.splitOn "/"
  let parts := (List.range names.length).map fun n => String.intercalate "/" (names.take (n + 1))
  parts.filter (· != "")

end Path

structure Workspace where
  files : List (Place × List UInt8) := []
  folders : List Place := []

namespace Workspace

def bytes? (w : Workspace) (p : Place) : Option (List UInt8) := w.files.lookup p

def hasFolder (w : Workspace) (p : Place) : Bool := p.isOuter || w.folders.contains p

def put (w : Workspace) (p : Place) (bytes : List UInt8) : Workspace :=
  { w with files := (p, bytes) :: w.files.filter fun f => f.1 != p }

/-- A folder and all folders that it lies in. -/
def addFolder (w : Workspace) (path : String) : Workspace :=
  { w with folders := Place.ancestors (Path.ofText path).place ++ w.folders }

/-- A file and all folders that it lies in. -/
def add (w : Workspace) (path : String) (bytes : List UInt8) : Workspace :=
  let p := (Path.ofText path).place
  { w.put p bytes with folders := Place.ancestors p.tail ++ w.folders }

def longestName : Nat := 255

def longestPath : Nat := 4095

/-- A place is a folder that can be gone through. -/
def checkFolder (w : Workspace) (p : Place) : Except FileFault Unit :=
  if w.hasFolder p then .ok ()
  else if (w.bytes? p).isSome then .error .noFolder
  else .error .missing

def checkName (name : String) : Except FileFault Unit :=
  if longestName < name.utf8ByteSize then .error .nameTooLong else .ok ()

/-- Follow names from folder to folder. -/
def follow (w : Workspace) (p : Place) : List String → Except FileFault Place
  | [] => .ok p
  | name :: names => do
    w.checkFolder p
    checkName name
    w.follow (p.enter name) names

/-- What is wrong with a path whatever the workspace holds. -/
def checkPath (path : String) : Except FileFault Unit :=
  if path.toList.contains '\x00' then .error .nullCharacter
  else if path = "" then .error .missing
  else if longestPath < path.utf8ByteSize then .error .nameTooLong
  else .ok ()

/-- The bytes of the file that a path leads to. -/
def read (w : Workspace) (path : String) : Except FileFault (List UInt8) := do
  checkPath path
  let ⟨start, names⟩ := Path.ofText path
  let p ← w.follow start names
  match w.bytes? p with
  | some bytes => pure bytes
  | none => throw (if w.hasFolder p then .isFolder else .missing)

/-- Write the file that a path leads to. A path with a slash at the end leads to a folder. -/
def write (w : Workspace) (path : String) (bytes : List UInt8) : Except FileFault Workspace := do
  checkPath path
  let ⟨start, names⟩ := Path.ofText path
  match names.reverse.dropWhile (· == "") with
  | [] => throw .isFolder
  | name :: outer =>
    let folder ← w.follow start outer.reverse
    w.checkFolder folder
    if names.getLast? = some "" ∨ name = "." ∨ name = ".." then throw .isFolder
    checkName name
    let p := folder.enter name
    if w.hasFolder p then throw .isFolder
    pure (w.put p bytes)

end Workspace

end StockScreen

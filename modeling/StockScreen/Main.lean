import StockScreen.Command.Files

/-! # Command line -/

namespace StockScreen.CommandLine

def tryBytes (path : String) : IO (Option (List UInt8)) := do
  try pure (some (← IO.FS.readBinFile path).toList)
  catch _ => pure none

def writeBytes (path : String) (bytes : List UInt8) : IO Unit :=
  IO.FS.writeBinFile path (ByteArray.mk bytes.toArray)

def isFolder (path : String) : IO Bool := do
  try
    let _ ← IO.FS.realPath (path ++ "/.")
    pure true
  catch _ => pure false

/-- A workspace with the file or folder at a path. -/
def fetchPart (w : Workspace) (path : String) : IO Workspace := do
  match ← tryBytes path with
  | some bytes => pure (w.add path bytes)
  | none => if ← isFolder path then pure (w.addFolder path) else pure w

def fetch (w : Workspace) (path : String) : IO Workspace :=
  (Path.leadingParts path).foldlM fetchPart w

def putBack (w : Workspace) (path : String) : IO Unit :=
  match w.bytes? (Path.ofText path).place with
  | some bytes => writeBytes path bytes
  | none => pure ()

def run (command : Command) : IO UInt32 := do
  let w ← command.inputs.foldlM fetch {}
  let targets := (command.databasePath? w).toList ++ command.output?.toList
  let w ← targets.foldlM fetch w
  let (o, w) := command.execute w
  for warning in o.warnings do
    IO.eprintln s!"warning: {warning.message}"
  IO.print o.printed
  IO.eprint o.reported
  targets.forM (putBack w)
  pure o.exitCode.toUInt32

end StockScreen.CommandLine

open StockScreen

def main (args : List String) : IO UInt32 := do
  match Command.read args with
  | .ok command => CommandLine.run command
  | .error .help =>
    IO.print Command.helpText
    pure 0
  | .error fault =>
    IO.eprintln s!"error: {fault.message}"
    IO.eprint Command.helpText
    pure 2

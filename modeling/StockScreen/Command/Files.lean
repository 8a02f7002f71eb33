import StockScreen.Command.Run
import StockScreen.Database.Archive

/-! # Files of a command

Which files a command reads and writes, so that they can be fetched before it
runs and put back afterwards.
-/

namespace StockScreen

def UsageFault.message : UsageFault → String
  | .nothing => "a command is required"
  | .help => "help"
  | .unknownCommand => "unknown command"
  | .unknownArgument => "unknown argument"
  | .missingArgument => "a required argument is missing"
  | .repeatedArgument => "an argument is given twice"
  | .invalidValue => "an argument has no value, or a value that it cannot have"
  | .surplusValue => "an argument has a value that takes none"

namespace Command

def config? : Command → Option String
  | createTables config | importRows config _ _ | fundamentals config _ _ => some config
  | explain args | screen args => some args.config
  | backtest args => some args.config
  | indicators _ => none

def inputs (command : Command) : List String :=
  command.config?.toList ++ match command with
    | importRows _ _ file => [file]
    | explain args | screen args => [args.rule]
    | fundamentals _ conditions _ => [conditions]
    | backtest args => [args.buy, args.sell]
    | createTables _ | indicators _ => []

def output? : Command → Option String
  | backtest args => args.output
  | _ => none

/-- The path of the database that a command opens, if its configuration in `w` names one. -/
def databasePath? (command : Command) (w : Workspace) : Option String := do
  let config ← command.config?
  let ini ← (Config.ofFile config (w.read config)).toOption
  let storeConfig ← (Config.storeConfig ini).toOption
  match ← Location.read? storeConfig.path with
  | .temporary => none
  | .file path _ _ => some path

def optionText (o : OptionSpec) : String :=
  let value := match o.kind with
    | .flag => ""
    | _ => " <" ++ o.long ++ ">"
  let text := "--" ++ o.long ++ value
  if o.required then text else "[" ++ text ++ "]"

def usageLine (u : Usage) : String :=
  let positional := u.positional.toList.map fun o => "[" ++ o.long ++ "]"
  "  " ++ String.intercalate " " (u.name :: u.options.map optionText ++ positional)

def helpText : String := String.join (usages.map fun u => usageLine u ++ "\n")

end Command

end StockScreen

import StockScreen.Command.Usage

/-! # Command lines

Arguments are read from the left. The value of an option is checked when the
next known option comes, or at the end.
-/

namespace StockScreen.Command

/-- The form of an argument. Two hyphens alone end the options. -/
inductive Form
  | marker
  | long (name : String) (value : Option String)
  | short (letter : Char) (value : Option String)
  | word
  deriving DecidableEq, Repr

def Form.of (arg : String) : Form :=
  match arg.toList with
  | ['-', '-'] => .marker
  | '-' :: '-' :: cs =>
    let value := match cs.dropWhile (· != '=') with
      | [] => none
      | _ :: v => some (String.ofList v)
    .long (String.ofList (cs.takeWhile (· != '='))) value
  | ['-', c] => .short c none
  | '-' :: c :: '=' :: v => .short c (some (String.ofList v))
  | '-' :: c :: v => .short c (some (String.ofList v))
  | _ => .word

structure Reading where
  given : List (String × String) := []
  /-- The last argument, with its value if that has come. -/
  pending : Option (OptionSpec × Option String) := none
  /-- Options have ended. -/
  ended : Bool := false

namespace Reading

def record (r : Reading) (o : OptionSpec) (value : String) : Except UsageFault Reading :=
  if (r.given.lookup o.long).isSome then .error .repeatedArgument
  else if !o.kind.accepts value then .error .invalidValue
  else .ok { r with given := r.given ++ [(o.long, value)] }

def settle (r : Reading) : Except UsageFault Reading :=
  match r.pending with
  | none => .ok r
  | some (_, none) => .error .invalidValue
  | some (o, some value) => { r with pending := none }.record o value

def showHelp (r : Reading) : Except UsageFault Reading := do
  let _ ← r.settle
  throw .help

def takeOption (r : Reading) (o : OptionSpec) (value : Option String) :
    Except UsageFault Reading := do
  match o.kind, value with
  | .flag, some _ => throw .surplusValue
  | .flag, none => (← r.settle).record o ""
  | _, some v => (← r.settle).record o v
  | _, none => pure { ← r.settle with pending := some (o, none) }

/-- An argument without a name, which a command takes at most once. -/
def takePositional (u : Usage) (r : Reading) (arg : String) : Except UsageFault Reading := do
  match u.positional with
  | some o =>
    let taken := r.pending.any fun (p, _) => p.long == o.long
    if taken then throw .unknownArgument
    else pure { ← r.settle with pending := some (o, some arg) }
  | none => throw .unknownArgument

def takeWord (u : Usage) (r : Reading) (arg : String) : Except UsageFault Reading :=
  match r.pending with
  | some (o, none) => .ok { r with pending := some (o, some arg) }
  | _ => takePositional u r arg

def take (u : Usage) (r : Reading) (arg : String) : Except UsageFault Reading :=
  if r.ended then takePositional u r arg
  else match Form.of arg with
    | .marker => .ok { r with ended := true }
    | .long name value =>
      match u.options.find? fun o => o.long == name with
      | some o => r.takeOption o value
      | none =>
        if name ≠ "help" then .error .unknownArgument
        else if value.isSome then .error .surplusValue
        else r.showHelp
    | .short letter value =>
      match u.options.find? fun o => o.short == some letter with
      | some o => r.takeOption o value
      | none => if letter = 'h' then r.showHelp else .error .unknownArgument
    | .word => takeWord u r arg

end Reading

def Usage.read (u : Usage) (args : List String) :
    Except UsageFault (List (String × String)) := do
  let r ← args.foldlM (Reading.take u) {}
  let r ← r.settle
  if u.options.any fun o => o.required && (r.given.lookup o.long).isNone then
    throw .missingArgument
  else pure r.given

def ofValues? (name : String) (given : List (String × String)) : Option Command :=
  let value? (k : String) := given.lookup k
  let value (k : String) := (value? k).getD ""
  let screening : ScreenArguments :=
    ⟨value "config", value "rule", value? "date", value? "stocks", (value? "union").isSome⟩
  match name with
  | "init-db" => some (.createTables (value "config"))
  | "import" => some (.importRows (value "config") (value "table") (value "file"))
  | "indicators" =>
    some (.indicators (((value? "catalog").bind CatalogName.read?).getD (.timeframe .daily)))
  | "explain" => some (.explain screening)
  | "screen" => some (.screen screening)
  | "fundamentals" =>
    some (.fundamentals (value "config") (value "conditions") (value? "stocks"))
  | "backtest" =>
    some (.backtest ⟨value "config", value "buy", value "sell", value? "start", value? "end",
      value? "stocks", value? "output"⟩)
  | _ => none

def helpWord : String := "help"

def usage? (name : String) : Option Usage := usages.find? fun u => u.name == name

def isCommandName (s : String) : Bool := s == helpWord || (usage? s).isSome

/-- What follows the word for help is at most one name of a command. -/
def readHelp : List String → UsageFault
  | [] => .help
  | [name] => if isCommandName name then .help else .unknownCommand
  | _ => .unknownCommand

def readOutside (arg : String) (rest : List String) : UsageFault :=
  match Form.of arg with
  | .marker =>
    match rest with
    | [] => .nothing
    | next :: _ => if isCommandName next then .unknownArgument else .unknownCommand
  | .long "help" none => .help
  | .long "help" (some _) => .surplusValue
  | .long .. => .unknownArgument
  | .short letter _ => if letter = 'h' then .help else .unknownArgument
  | .word => .unknownCommand

def read : List String → Except UsageFault Command
  | [] => .error .nothing
  | arg :: rest =>
    if arg = helpWord then .error (readHelp rest)
    else match usage? arg with
      | none => .error (readOutside arg rest)
      | some u => do
        let given ← u.read rest
        match ofValues? u.name given with
        | some c => pure c
        | none => throw .unknownCommand

end StockScreen.Command

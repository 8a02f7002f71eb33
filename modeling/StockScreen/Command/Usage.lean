import StockScreen.Command.Basic

/-! # Usage of commands

Each command has a name, options, and at most one argument without a name.
-/

namespace StockScreen

inductive UsageFault
  | nothing
  | help
  | unknownCommand
  | unknownArgument
  | missingArgument
  | repeatedArgument
  | invalidValue
  | surplusValue
  deriving DecidableEq, Repr

namespace Command

/-- What an argument takes: nothing, a name of a file, any text, or a name of a catalog. -/
inductive ValueKind | flag | path | text | catalog
  deriving DecidableEq, Repr

def ValueKind.accepts (kind : ValueKind) (value : String) : Bool :=
  match kind with
  | path => value != ""
  | catalog => (CatalogName.read? value).isSome
  | flag | text => true

structure OptionSpec where
  long : String
  short : Option Char
  kind : ValueKind
  required : Bool
  deriving DecidableEq, Repr

/-- The options of a command, and the argument without a name that it may have. -/
structure Usage where
  name : String
  options : List OptionSpec
  positional : Option OptionSpec
  deriving DecidableEq, Repr

def configOption : OptionSpec := ⟨"config", some 'c', .path, true⟩
def stocksOption : OptionSpec := ⟨"stocks", none, .text, false⟩

def screenOptions : List OptionSpec :=
  [configOption, ⟨"rule", some 'r', .path, true⟩, ⟨"date", some 'd', .text, false⟩,
    stocksOption, ⟨"union", none, .flag, false⟩]

def importOptions : List OptionSpec :=
  [configOption, ⟨"table", some 't', .text, true⟩, ⟨"file", some 'f', .path, true⟩]

def backtestOptions : List OptionSpec :=
  [configOption, ⟨"buy", none, .path, true⟩, ⟨"sell", none, .path, true⟩,
    ⟨"start", none, .text, false⟩, ⟨"end", none, .text, false⟩, stocksOption,
    ⟨"output", some 'o', .path, false⟩]

def usages : List Usage :=
  [⟨"init-db", [configOption], none⟩,
    ⟨"import", importOptions, none⟩,
    ⟨"indicators", [], some ⟨"catalog", none, .catalog, false⟩⟩,
    ⟨"explain", screenOptions, none⟩,
    ⟨"screen", screenOptions, none⟩,
    ⟨"fundamentals", [configOption, ⟨"conditions", none, .path, true⟩, stocksOption], none⟩,
    ⟨"backtest", backtestOptions, none⟩]

end Command

end StockScreen

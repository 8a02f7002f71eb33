import StockScreen.Timeframe

/-! # Errors

Why a screen, a simulation or a command fails, with the wording of each cause.
-/

namespace StockScreen

/-- A data store fails as a whole or at one query. -/
inductive StoreFault
  | access (reason : String)
  | query (reason : String)
  deriving DecidableEq, Repr

inductive ScreenError
  | unknownIndicator (scope name : String)
  | unknownOffset (tf : Timeframe) (label : String)
  | unsupportedOperator (operator : String)
  | crossTable (left leftTable right rightTable : String)
  | noActiveConditions
  | dateNotFound (date : String)
  | outOfOrder (requested current : String)
  | store (fault : StoreFault)
  | configParse (file reason : String)
  | configMissing (sectionName key : String)
  | configInvalid (sectionName key reason : String)
  | invalidRule (reason : String)
  | fileAccess (reason : String)
  deriving DecidableEq, Repr

def StoreFault.message : StoreFault → String
  | access reason => s!"database error: {reason}"
  | query reason => s!"database query error: {reason}"

namespace ScreenError

def message : ScreenError → String
  | unknownIndicator scope name => s!"unknown {scope} indicator: {name}"
  | unknownOffset tf label => s!"unknown {tf.name} offset label: {label}"
  | unsupportedOperator operator => s!"unsupported operator: {operator}"
  | crossTable left leftTable right rightTable =>
    s!"cannot compare {left} ({leftTable}) with {right} ({rightTable}): " ++
      "indicators must share a table"
  | noActiveConditions => "rule has no active conditions"
  | dateNotFound date => s!"date {date} is not a known trading date"
  | outOfOrder requested current =>
    s!"out-of-order date access: requested {requested} after {current}"
  | store fault => fault.message
  | configParse file reason => s!"config parse error in {file}: {reason}"
  | configMissing sectionName key => s!"missing config key [{sectionName}] {key}"
  | configInvalid sectionName key reason => s!"invalid config value [{sectionName}] {key}: {reason}"
  | invalidRule reason => s!"invalid rule: {reason}"
  | fileAccess reason => reason

/-- The error comes from the data store, not from the rule or its dates. -/
def isStoreFault : ScreenError → Bool
  | store _ => true
  | _ => false

def exitCode : ScreenError → UInt8
  | fileAccess _ => 1
  | configParse .. | configMissing .. | configInvalid .. => 2
  | store _ => 3
  | unknownIndicator .. | unknownOffset .. | unsupportedOperator _ | crossTable ..
  | noActiveConditions | invalidRule _ => 4
  | dateNotFound _ | outOfOrder .. => 5

end ScreenError

end StockScreen

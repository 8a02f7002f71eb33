import StockScreen.Indicator.Catalog
import StockScreen.Noted
import StockScreen.Rule

/-! # Conditions

A condition is a prompt whose labels and names are resolved into columns. The
first thing of a prompt that cannot be resolved is its error.
-/

namespace StockScreen

/-- A table of a timeframe shifted back, or a table without a time. -/
inductive Target
  | shifted (offset : Nat) (kind : TableKind)
  | table (name : String)
  deriving DecidableEq, Repr

structure ColumnRef where
  timeframe : Timeframe
  target : Target
  column : String
  deriving DecidableEq, Repr

def ColumnRef.aliasName (c : ColumnRef) : String :=
  match c.target with
  | .shifted offset kind => c.timeframe.aliasAt offset kind
  | .table name => name

inductive Operand
  | column (c : ColumnRef)
  | literal (text : String)
  deriving DecidableEq, Repr

def Operand.column? : Operand → Option ColumnRef
  | column c => some c
  | literal _ => none

structure Condition where
  left : ColumnRef
  operator : Comparison
  right : Operand
  deriving DecidableEq, Repr

def Condition.columns (c : Condition) : List ColumnRef := c.left :: c.right.column?.toList

/-- The comparison that an operator text names under a policy. -/
def OperatorPolicy.read (policy : OperatorPolicy) (text : String) : Noted Comparison :=
  match Comparison.read? text, policy with
  | some op, _ => pure op
  | none, .strict => .fail (.unsupportedOperator text)
  | none, .fallback => ⟨.ok .equal, [.operatorReplaced text]⟩

namespace Condition

def resolveColumn (catalogs : Catalogs) (tf : Timeframe) (label name : String) :
    Except ScreenError ColumnRef :=
  match OffsetLabel.read? tf label with
  | some (.periods offset) => do
    let entry ← (catalogs.timeframe tf).lookup name
    match entry.home with
    | .timeframe kind => pure ⟨tf, .shifted offset kind, entry.column⟩
    | .fundamental table => pure ⟨tf, .table table, entry.column⟩
  | some .other => do
    let entry ← catalogs.fundamentals.lookup name
    match entry.home with
    | .fundamental table => pure ⟨tf, .table table, entry.column⟩
    | .timeframe _ => throw (.invalidRule s!"indicator '{name}' has no fundamentals table")
  | some .customValue | none => throw (.unknownOffset tf label)

def compile (catalogs : Catalogs) (policy : OperatorPolicy) (tf : Timeframe) (p : Prompt) :
    Noted Condition := do
  let left ← .ofExcept (resolveColumn catalogs tf p.leftOffset p.leftIndicator)
  let operator ← policy.read p.operator
  if p.isLiteral then
    pure ⟨left, operator, .literal p.rightIndicator⟩
  else
    let right ← .ofExcept (resolveColumn catalogs tf p.rightOffset p.rightIndicator)
    pure ⟨left, operator, .column right⟩

/-- Compile prompts in their order, up to the first that fails. -/
def compileAll (catalogs : Catalogs) (policy : OperatorPolicy) (tf : Timeframe) :
    List Prompt → Noted (List Condition)
  | [] => pure []
  | p :: ps => do
    let c ← compile catalogs policy tf p
    let cs ← compileAll catalogs policy tf ps
    pure (c :: cs)

end Condition

end StockScreen

import StockScreen.Condition
import StockScreen.Session
import StockScreen.Text.Basic

/-! # Screening by fundamentals

Conditions on tables without a time are checked row by row. Each table is
asked for once, and a stock has to qualify in every table.
-/

namespace StockScreen

inductive FundamentalOperand
  | number (x : Float)
  | column (name : String)

structure FundamentalCondition where
  table : String
  column : String
  operator : Comparison
  right : FundamentalOperand

namespace FundamentalCondition

def operandIn (row : Row) : FundamentalOperand → Option Float
  | .number x => some x
  | .column name => row.number? name

/-- Both sides are numbers, and the comparison holds between them. -/
def holds (c : FundamentalCondition) (row : Row) : Bool :=
  match row.number? c.column, operandIn row c.right with
  | some x, some y => c.operator.holds x y
  | _, _ => false

/-- The right side of a prompt: a number, or another indicator of the left one's table. -/
def resolveValue (catalog : Catalog) (p : FundamentalPrompt) (table : String) :
    Except ScreenError FundamentalOperand :=
  let value := Text.trim p.value
  match Decimal.readFloat? value with
  | some x => pure (.number x)
  | none => do
    let entry ← catalog.lookup value
    let other := entry.fundamentalTable?.getD ""
    if other = table then pure (.column entry.column)
    else throw (.crossTable p.indicator table value other)

def compile (catalog : Catalog) (policy : OperatorPolicy) (p : FundamentalPrompt) :
    Noted FundamentalCondition := do
  let left ← .ofExcept (catalog.lookup p.indicator)
  match left.fundamentalTable? with
  | none => .fail (.invalidRule s!"'{p.indicator}' is not a fundamentals indicator")
  | some table =>
    let operator ← policy.read p.operator
    let right ← .ofExcept (resolveValue catalog p table)
    pure ⟨table, left.column, operator, right⟩

def compileEach (catalog : Catalog) (policy : OperatorPolicy) :
    List FundamentalPrompt → Noted (List FundamentalCondition)
  | [] => pure []
  | p :: ps => do
    let c ← compile catalog policy p
    let cs ← compileEach catalog policy ps
    pure (c :: cs)

structure Group where
  table : String
  conditions : List FundamentalCondition

def group (cs : List FundamentalCondition) : List Group :=
  (ascending (cs.map table)).map fun table => ⟨table, cs.filter (·.table == table)⟩

/-- The conditions by table. No prompts at all are an error. -/
def compileAll (catalog : Catalog) (policy : OperatorPolicy) (ps : List FundamentalPrompt) :
    Noted (List Group) :=
  if ps.isEmpty then .fail .noActiveConditions
  else do
    let cs ← compileEach catalog policy ps
    pure (group cs)

end FundamentalCondition

/-- Without an allowlist every stock is allowed. -/
def allows (allow : Option (List String)) (id : String) : Bool :=
  match allow with
  | none => true
  | some ids => ids.contains id

namespace FundamentalCondition.Group

def qualifying (g : Group) (allow : Option (List String)) (rows : List Row) : List String :=
  ascending <| ((rows.filter fun row => g.conditions.all (·.holds row)).filterMap
    (Row.text? · entityColumn)).filter (allows allow)

end FundamentalCondition.Group

namespace Fundamentals

variable {σ : Type}

def askGroups (store : DataStore σ) (allow : Option (List String)) :
    List FundamentalCondition.Group → Session σ (List (List String))
  | [] => pure []
  | g :: gs => do
    let rows ← store.ask (.table g.table)
    let rest ← askGroups store allow gs
    pure (g.qualifying allow rows :: rest)

/-- The elements common to all lists, in the order of the first. -/
def common : List (List String) → List String
  | [] => []
  | ids :: rest => ids.filter fun id => rest.all (·.contains id)

def ids (store : DataStore σ) (catalog : Catalog) (policy : OperatorPolicy)
    (ps : List FundamentalPrompt) (allow : Option (List String)) : Session σ (List String) := do
  let groups ← .ofNoted (FundamentalCondition.compileAll catalog policy ps)
  let found ← askGroups store allow groups
  pure (common found)

end Fundamentals

end StockScreen

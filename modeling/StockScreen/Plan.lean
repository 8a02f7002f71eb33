import StockScreen.Condition
import StockScreen.Query.Select
import StockScreen.Window

/-! # Query plans

A plan says which tables a timeframe's conditions need. The raw table at
offset 0 is the anchor, and its derived table is always joined. Every other
referenced table is joined once, bound to the date at its offset; a raw one
must have a row, others may miss it. Conditions that need an offset beyond the
window are false.
-/

namespace StockScreen

structure Shift where
  offset : Nat
  kind : TableKind
  deriving DecidableEq, Repr

def TableKind.rank : TableKind → Nat
  | raw => 0
  | derived => 1

/-- By offset, and raw before derived. -/
def Shift.le (a b : Shift) : Bool :=
  a.offset < b.offset || a.offset == b.offset && a.kind.rank ≤ b.kind.rank

/-- The shifted table of a column that is not an anchor column. -/
def ColumnRef.shift? (c : ColumnRef) : Option Shift :=
  match c.target with
  | .shifted offset kind => if 0 < offset then some ⟨offset, kind⟩ else none
  | .table _ => none

def ColumnRef.table? (c : ColumnRef) : Option String :=
  match c.target with
  | .table name => some name
  | .shifted .. => none

structure DatedShift where
  shift : Shift
  date : String
  deriving DecidableEq, Repr

structure Plan where
  timeframe : Timeframe
  anchorDate : Option String
  joins : List DatedShift
  dropped : List Shift
  fundamentals : List String
  allowlist : Option (List String)
  conditions : List Condition
  deriving DecidableEq, Repr

/-- The shifted tables that conditions refer to, in order. -/
def referenced (conditions : List Condition) : List Shift :=
  arrange Shift.le ((conditions.flatMap Condition.columns).filterMap ColumnRef.shift?)

/-- The tables without a time that conditions refer to, in order. -/
def referencedTables (conditions : List Condition) : List String :=
  ascending ((conditions.flatMap Condition.columns).filterMap ColumnRef.table?)

namespace Plan

def make (tf : Timeframe) (conditions : List Condition) (window : Window)
    (allowlist : Option (List String)) : Plan where
  timeframe := tf
  anchorDate := window.anchor?
  joins := (referenced conditions).filterMap fun s =>
    (window.dateAt? s.offset).map fun date => ⟨s, date⟩
  dropped := (referenced conditions).filter fun s => (window.dateAt? s.offset).isNone
  fundamentals := referencedTables conditions
  allowlist := allowlist
  conditions := conditions

/-- The offsets without a date are reported once, in order. -/
def warnings (p : Plan) (window : Window) : List Warning :=
  if p.dropped.isEmpty then []
  else [.joinsDropped p.timeframe window.dates.length (p.dropped.map Shift.offset).eraseReps]

open Query (Expr Predicate Join Select)

def anchorAlias (p : Plan) : String := p.timeframe.aliasAt 0 .raw

def entity (aliasName : String) : Expr := .column aliasName entityColumn

def equal (l r : Expr) : Predicate := .compare l .equal r

def expr (c : ColumnRef) : Expr := .column c.aliasName c.column

def isDropped (p : Plan) (c : ColumnRef) : Bool :=
  match c.target with
  | .shifted offset kind => p.dropped.contains ⟨offset, kind⟩
  | .table _ => false

def operandExpr : Operand → Expr
  | .column c => expr c
  | .literal text => .literal text

/-- The comparison of a condition, or false if it needs a dropped table. -/
def conditionPredicate (p : Plan) (c : Condition) : Predicate :=
  if c.columns.any p.isDropped then .never
  else .compare (expr c.left) c.operator (operandExpr c.right)

/-- Raw rows have to be there, derived ones may be missing. -/
def joinKind : TableKind → Query.JoinKind
  | .raw => .inner
  | .derived => .left

def derivedAlias (p : Plan) : String := p.timeframe.aliasAt 0 .derived

/-- The derived row of the anchor's stock and time. -/
def anchorJoin (p : Plan) : Join where
  kind := .left
  table := p.timeframe.table .derived
  aliasName := p.derivedAlias
  condition := .all [equal (entity p.anchorAlias) (entity p.derivedAlias),
    equal (.column p.anchorAlias p.timeframe.timeColumn)
      (.column p.derivedAlias p.timeframe.timeColumn)]

def shiftAlias (p : Plan) (s : Shift) : String := p.timeframe.aliasAt s.offset s.kind

/-- The row of the anchor's stock at the date of a shifted table. -/
def shiftJoin (p : Plan) (d : DatedShift) : Join where
  kind := joinKind d.shift.kind
  table := p.timeframe.table d.shift.kind
  aliasName := p.shiftAlias d.shift
  condition := .all [equal (entity p.anchorAlias) (entity (p.shiftAlias d.shift)),
    equal (.column (p.shiftAlias d.shift) p.timeframe.timeColumn) (.literal d.date)]

def tableJoin (p : Plan) (table : String) : Join where
  kind := .left
  table := table
  aliasName := table
  condition := equal (entity p.anchorAlias) (entity table)

/-- The anchor's date; without one nothing matches. -/
def datePredicate (p : Plan) : Predicate :=
  match p.anchorDate with
  | some date => equal (.column p.anchorAlias p.timeframe.timeColumn) (.literal date)
  | none => .never

def allowPredicates (p : Plan) : List Predicate :=
  p.allowlist.toList.map fun ids => .oneOf (entity p.anchorAlias) ids

def query (p : Plan) : Select where
  column := entity p.anchorAlias
  heading := entityColumn
  table := p.timeframe.table .raw
  aliasName := p.anchorAlias
  joins := p.anchorJoin :: p.joins.map p.shiftJoin ++ p.fundamentals.map p.tableJoin
  filter := .all (p.datePredicate :: p.allowPredicates ++ p.conditions.map p.conditionPredicate)

end Plan

end StockScreen

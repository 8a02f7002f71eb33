import StockScreen.Database.Insert
import StockScreen.Query.Depth

/-! # Answers to select statements

The meaning of a statement: rows of the anchor table, joined with rows of the
other tables, filtered, and one column of what remains. Comparisons with
nothing are neither true nor false.
-/

namespace StockScreen

def realOrder (x y : Float) : Ordering := if x < y then .lt else if y < x then .gt else .eq

def integerOrder (n : Int) (x : Float) : Ordering :=
  match Decimal.Reading.of x with
  | .finite b => (b.compareInt n).swap
  | .infinite negative => if negative then .gt else .lt
  | .nan => .eq

/-- The order of cells; there is none with a null. Numbers come before texts. -/
def Cell.order? : Cell → Cell → Option Ordering
  | .null, _ | _, .null => none
  | .integer m, .integer n => some (compare m n)
  | .integer n, .real x => some (integerOrder n x)
  | .real x, .integer n => some (integerOrder n x).swap
  | .real x, .real y => some (realOrder x y)
  | .text s, .text t => some (compare s t)
  | .text _, _ => some .gt
  | _, .text _ => some .lt

namespace Query

/-- A row of a table under an alias. A join without a match binds a row without cells. -/
structure Binding where
  aliasName : String
  table : Table
  row : Row

abbrev Scope := List Binding

/-- The cell of an expression, and the affinity of its column if it is one. -/
def Expr.value (scope : Scope) : Expr → Cell × Option Affinity
  | .literal s => (.text s, none)
  | .column aliasName name =>
    match scope.find? fun b => b.aliasName == aliasName with
    | some b => ((b.row.lookup name).getD .null, b.table.affinity? name)
    | none => (.null, none)

/-- Texts are compared as numbers with a numeric column. -/
def comparesNumbers (a b : Option Affinity) : Bool :=
  a.any Affinity.isNumeric || b.any Affinity.isNumeric

def compareValues (op : Comparison) (l r : Cell × Option Affinity) : Option Bool :=
  let (a, b) :=
    if comparesNumbers l.2 r.2 then (l.1.spelled, r.1.spelled) else (l.1, r.1)
  (a.order? b).map op.admits

/-- Both hold, where either may be undecided. -/
def both : Option Bool → Option Bool → Option Bool
  | some false, _ | _, some false => some false
  | some true, some true => some true
  | _, _ => none

def either : Option Bool → Option Bool → Option Bool
  | some true, _ | _, some true => some true
  | some false, some false => some false
  | _, _ => none

mutual

def Predicate.holds? (scope : Scope) : Predicate → Option Bool
  | .all parts => allHold? scope parts
  | .compare l op r => compareValues op (l.value scope) (r.value scope)
  | .oneOf e values =>
    values.foldr (fun s => either (compareValues .equal (e.value scope) (.text s, none)))
      (some false)
  | .never => some false

def allHold? (scope : Scope) : List Predicate → Option Bool
  | [] => some true
  | p :: ps => both (p.holds? scope) (allHold? scope ps)

end

def Predicate.holds (scope : Scope) (p : Predicate) : Bool := p.holds? scope == some true

mutual

/-- The parts of a conjunction, at any depth. -/
def Predicate.conjuncts : Predicate → List Predicate
  | .all parts => allConjuncts parts
  | p => [p]

def allConjuncts : List Predicate → List Predicate
  | [] => []
  | p :: ps => p.conjuncts ++ allConjuncts ps

end

def Expr.mentionsOnly (aliasName : String) : Expr → Bool
  | .literal _ => true
  | .column a _ => a == aliasName

/-- A comparison or a choice that needs no other alias. -/
def Predicate.isLocal (aliasName : String) : Predicate → Bool
  | .compare l _ r => l.mentionsOnly aliasName && r.mentionsOnly aliasName
  | .oneOf e _ => e.mentionsOnly aliasName
  | .never => true
  | .all _ => false

/-- Bindings of those rows that the parts of `p` which need no other alias admit. -/
def candidates (p : Predicate) (aliasName : String) (t : Table) (rows : List Row) :
    List Binding :=
  let parts := p.conjuncts.filter (Predicate.isLocal aliasName)
  (rows.map fun row => ⟨aliasName, t, row⟩).filter fun b => parts.all (Predicate.holds [b])

end Query

namespace Database

def tableRows (db : Database) (name : String) : Except StoreFault (Table × List Row) :=
  match Table.find? name, db.rows? name with
  | some t, some rows => .ok (t, rows)
  | _, _ => .error (.query s!"no such table: {name}")

open Query in
def join (db : Database) (scopes : List Scope) (j : Join) : Except StoreFault (List Scope) := do
  let (t, rows) ← db.tableRows j.table
  let bindings := candidates j.condition j.aliasName t rows
  pure (scopes.flatMap fun scope =>
    let matching := bindings.filter fun b => j.condition.holds (b :: scope)
    match j.kind, matching with
    | .left, [] => [⟨j.aliasName, t, []⟩ :: scope]
    | _, _ => matching.map (· :: scope))

def greatestHeight : Nat := 1000

def tooDeep : StoreFault :=
  .query s!"Expression tree is too large (maximum depth {greatestHeight})"

open Query in
def select (db : Database) (s : Select) : Except StoreFault (List Cell) := do
  if greatestHeight < s.height then throw tooDeep
  let (t, rows) ← db.tableRows s.table
  let anchors := (candidates s.filter s.aliasName t rows).map fun b => [b]
  let scopes ← s.joins.foldlM db.join anchors
  pure ((scopes.filter fun scope => s.filter.holds scope).map fun scope =>
    (s.column.value scope).1)

end Database

end StockScreen

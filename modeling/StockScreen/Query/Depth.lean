import StockScreen.Query.Select

/-! # Depth of statements

How deep the expressions of a statement are nested. A conjunction of several
parts is nested to the left, and the conditions of joins are added to it.
-/

namespace StockScreen.Query

def Expr.height : Expr → Nat
  | .column .. => 2
  | .literal _ => 1

mutual

def Predicate.height : Predicate → Nat
  | .all parts => heightOfAll parts
  | .compare l _ r => max l.height r.height + 1
  | .oneOf _ [] => 2
  | .oneOf e _ => e.height + 1
  | .never => 2

def heightOfAll : List Predicate → Nat
  | [] => 2
  | p :: ps => heightWith p.height ps

/-- The height of a conjunction that continues one of height `h`. -/
def heightWith (h : Nat) : List Predicate → Nat
  | [] => h
  | p :: ps => heightWith (max h p.height + 1) ps

end

def Select.height (s : Select) : Nat :=
  s.joins.foldl (fun h j => max h j.condition.height + 1) s.filter.height

end StockScreen.Query

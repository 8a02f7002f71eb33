import StockScreen.Comparison
import StockScreen.Text.Quoted

/-! # Select statements

Statements that select one column from an anchor table joined with others, and
their texts. Aliases and literals are quoted, so they may be any text.
-/

namespace StockScreen.Query

inductive Expr
  | column (table name : String)
  | literal (text : String)
  deriving DecidableEq, Repr

inductive Predicate
  | all (parts : List Predicate)
  | compare (left : Expr) (op : Comparison) (right : Expr)
  | oneOf (e : Expr) (values : List String)
  | never
  deriving Repr

inductive JoinKind | inner | left
  deriving DecidableEq, Repr

structure Join where
  kind : JoinKind
  table : String
  aliasName : String
  condition : Predicate
  deriving Repr

structure Select where
  column : Expr
  heading : String
  table : String
  aliasName : String
  joins : List Join
  filter : Predicate
  deriving Repr

def identifier (s : String) : List Char := Text.quoted '"' s.toList

def literal (s : String) : List Char := Text.quoted '\'' s.toList

def listed : List (List Char) → List Char
  | [] => []
  | [cs] => cs
  | cs :: rest => cs ++ ',' :: ' ' :: listed rest

def Expr.render : Expr → List Char
  | .column table name => identifier table ++ '.' :: name.toList
  | .literal text => Query.literal text

mutual

/-- The text of a predicate. Inside another one, a conjunction of several parts stands in
parentheses. -/
def Predicate.render (nested : Bool) : Predicate → List Char
  | .all parts => renderAll nested parts
  | .compare l op r => l.render ++ ' ' :: op.symbol.toList ++ ' ' :: r.render
  | .oneOf _ [] => "1 = 0".toList
  | .oneOf e values => e.render ++ " IN (".toList ++ listed (values.map literal) ++ [')']
  | .never => "1 = 0".toList

/-- The text of a conjunction. Without parts it is true, and a single part stands for itself. -/
def renderAll (nested : Bool) : List Predicate → List Char
  | [] => "1 = 1".toList
  | [p] => p.render nested
  | p :: q :: rest =>
    let parts := p.render true ++ renderMore (q :: rest)
    if nested then '(' :: parts ++ [')'] else parts

def renderMore : List Predicate → List Char
  | [] => []
  | p :: rest => " AND ".toList ++ p.render true ++ renderMore rest

end

def JoinKind.keyword : JoinKind → String
  | inner => "JOIN"
  | left => "LEFT JOIN"

def Join.render (j : Join) : List Char :=
  '\n' :: j.kind.keyword.toList ++ ' ' :: j.table.toList ++ ' ' :: identifier j.aliasName ++
    " ON ".toList ++ j.condition.render false

def Select.render (s : Select) : List Char :=
  "SELECT ".toList ++ s.column.render ++ " AS ".toList ++ s.heading.toList ++
    "\nFROM ".toList ++ s.table.toList ++ ' ' :: identifier s.aliasName ++
    s.joins.flatMap Join.render ++ "\nWHERE ".toList ++ s.filter.render false

def Select.text (s : Select) : String := String.ofList s.render

end StockScreen.Query

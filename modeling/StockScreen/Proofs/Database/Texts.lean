import StockScreen.Proofs.Database.Meaning
import StockScreen.Proofs.Query.Compound

/-! # What a text asks for

A data store is asked with a text. The statements that it reads as are taken by
themselves: each selects cells by nested loops, and the set operators combine
these from left to right. The text of a request for stocks asks for what the
request means.
-/

namespace StockScreen

open Query

namespace Query

def Formula.holds (scope : Scope) (f : Formula) : Bool := f.truth scope.assignment == some true

/-- Every row with which the condition holds extends a scope. Without one, a left join binds a row
without cells. -/
def JoinClause.extend (j : JoinClause) (t : Table) (rows : List Row) (scope : Scope) :
    List Scope :=
  let bind := fun row => (⟨j.aliasName, t, row⟩ : Binding) :: scope
  match j.kind, rows.filter fun row => j.condition.holds (bind row) with
  | .left, [] => [bind []]
  | _, rows => rows.map bind

def Statement.Clear (s : Statement) : Prop :=
  (s.aliasName :: s.joins.map JoinClause.aliasName).Nodup

def Compound.Clear (c : Compound) : Prop := ∀ s ∈ c.first :: c.more.map Prod.snd, s.Clear

end Query

namespace Database

def joinRows (db : Database) (scopes : List Scope) (j : JoinClause) :
    Except StoreFault (List Scope) := do
  let (t, rows) ← db.tableRows j.table
  pure (scopes.flatMap (j.extend t rows))

def cellsOf (db : Database) (s : Statement) : Except StoreFault (List Cell) := do
  let (t, rows) ← db.tableRows s.table
  let scopes ← s.joins.foldlM db.joinRows (rows.map fun row => [⟨s.aliasName, t, row⟩])
  pure ((scopes.filter fun scope => s.filter.holds scope).map fun scope =>
    (s.column.under scope.assignment).1)

/-- The rows that several statements select together, under the heading of the first one. -/
def evaluate (db : Database) (c : Compound) : Except StoreFault (List Row) := do
  let cells ← c.more.foldlM (fun cells (mode, s) => do pure (mode.merge cells (← db.cellsOf s)))
    (← db.cellsOf c.first)
  pure (cells.map fun cell => [(c.first.heading, cell)])

/-- Every text that reads as statements with distinct aliases gets the rows that these select
together, in any order. -/
def Evaluates (db : Database) (exec : String → List Row) : Prop :=
  ∀ text c rows, Compound.parse? text = some c → c.Clear → db.evaluate c = .ok rows →
    (exec text).Perm rows

end Database

namespace Query

theorem Predicate.holds_formula (scope : Scope) (p : Predicate) :
    p.formula.holds scope = p.holds scope := by
  rw [Formula.holds, p.truth_formula, ← p.holds?_eq_truth, Predicate.holds]

theorem Join.extend_clause (j : Join) (t : Table) (rows : List Row) (scope : Scope) :
    j.clause.extend t rows scope = OpenJoin.extend ⟨j, t, rows⟩ scope := by
  simp only [JoinClause.extend, clause, Predicate.holds_formula]
  rfl

theorem Expr.under_assignment (scope : Scope) (e : Expr) :
    (Term.expr e).under scope.assignment = e.value scope := by
  cases e <;> rfl

theorem Select.clear_statement {s : Select} : s.statement.Clear ↔ s.Clear := by
  simp only [Statement.Clear, Clear, statement, List.map_map]
  rfl

end Query

namespace Database

variable {db : Database} {mode : CombineMode} {s : Select} {more : List Select}

theorem joinRows_clause (db : Database) (scopes : List Scope) (j : Join) :
    db.joinRows scopes j.clause = db.join scopes j := by
  rw [join_eq, joinRows, openJoin, show j.clause.table = j.table from rfl]
  cases db.tableRows j.table with
  | error fault => rfl
  | ok tr =>
    obtain ⟨t, rows⟩ := tr
    have hextend : j.clause.extend t rows = OpenJoin.extend ⟨j, t, rows⟩ :=
      funext (j.extend_clause t rows)
    exact congrArg (fun f => Except.ok (scopes.flatMap f)) hextend

theorem cellsOf_statement (db : Database) (s : Select) :
    db.cellsOf s.statement = db.nestedLoops s := by
  have hjoin : (fun scopes j => db.joinRows scopes j.clause) = db.join :=
    funext fun scopes => funext fun j => joinRows_clause db scopes j
  rw [cellsOf, nestedLoops, show s.statement.table = s.table from rfl]
  cases db.tableRows s.table with
  | error fault => rfl
  | ok tr =>
    obtain ⟨t, rows⟩ := tr
    simp only [Select.statement, bind, Except.bind, List.foldlM_map, hjoin, foldlM_join]
    cases s.joins.mapM db.openJoin with
    | error fault => rfl
    | ok js =>
      simp only [Except.map, List.flatMap_map, Predicate.holds_formula, Expr.under_assignment]

theorem evaluate_compound (db : Database) (mode : CombineMode) (s : Select) (more : List Select) :
    db.evaluate (mode.compound s more) =
      (db.combined mode (s :: more)).map (headed (s :: more)) := by
  simp only [evaluate, combined, CombineMode.compound, List.foldlM_map, cellsOf_statement]
  cases db.nestedLoops s with
  | error fault => rfl
  | ok cells => exact bind_pure_comp (m := Except StoreFault) (headed (s :: more)) _

theorem Evaluates.explains {exec : String → List Row} (h : db.Evaluates exec) :
    db.Explains fun r => exec r.text := by
  intro mode selects cells hne hselects hcells
  cases selects with
  | nil => exact absurd rfl hne
  | cons s more =>
    refine h _ (mode.compound s more) _ ?_ ?_ ?_
    · exact mode.combine_reads_back fun s' hs' => (hselects s' hs').2
    · intro t ht
      have hmem : t ∈ (s :: more).map Select.statement := by
        simpa [CombineMode.compound] using ht
      obtain ⟨s', hs', rfl⟩ := List.mem_map.mp hmem
      exact Select.clear_statement.mpr (hselects s' hs').1
    · rw [evaluate_compound, hcells]
      rfl

end Database

end StockScreen

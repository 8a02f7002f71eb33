import StockScreen.Database.Evaluate
import StockScreen.Proofs.Lists

/-! # Nested loops

The meaning of a statement, without any plan for its evaluation: every row of
the anchor table is extended by the rows of the joined tables, one table after
the other, and the filter decides at the end. An answer that leaves out rows
early, and is not refused for its depth, is the same.
-/

namespace StockScreen

namespace Query

structure OpenJoin where
  join : Join
  table : Table
  rows : List Row

namespace OpenJoin

def bind (j : OpenJoin) (row : Row) : Binding := ⟨j.join.aliasName, j.table, row⟩

def matching (j : OpenJoin) (scope : Scope) : List Row :=
  j.rows.filter fun row => j.join.condition.holds (j.bind row :: scope)

/-- Every row that matches extends a scope. Without one, a left join binds a row without cells. -/
def extend (j : OpenJoin) (scope : Scope) : List Scope :=
  match j.join.kind, j.matching scope with
  | .left, [] => [j.bind [] :: scope]
  | _, rows => rows.map fun row => j.bind row :: scope

end OpenJoin

def extendAll : List OpenJoin → Scope → List Scope
  | [], scope => [scope]
  | j :: js, scope => (j.extend scope).flatMap (extendAll js)

end Query

open Query

namespace Database

def openJoin (db : Database) (j : Join) : Except StoreFault OpenJoin := do
  let (t, rows) ← db.tableRows j.table
  pure ⟨j, t, rows⟩

/-- The cells that a statement selects by nested loops. -/
def nestedLoops (db : Database) (s : Select) : Except StoreFault (List Cell) := do
  let (t, rows) ← db.tableRows s.table
  let js ← s.joins.mapM db.openJoin
  let scopes := rows.flatMap fun row => extendAll js [⟨s.aliasName, t, row⟩]
  pure ((scopes.filter fun scope => s.filter.holds scope).map fun scope =>
    (s.column.value scope).1)

end Database

namespace Query

variable {scope : Scope} {aliasName : String} {b : Binding}

def Scope.find (scope : Scope) (aliasName : String) : Option Binding :=
  scope.find? fun b => b.aliasName == aliasName

theorem Scope.find_cons_self (b : Binding) (scope : Scope) :
    Scope.find (b :: scope) b.aliasName = some b := by
  simp [find]

theorem Scope.find_cons_of_ne (h : b.aliasName ≠ aliasName) :
    Scope.find (b :: scope) aliasName = Scope.find scope aliasName := by
  simp [find, h]

theorem Expr.value_column (scope : Scope) (aliasName name : String) :
    (Expr.column aliasName name).value scope =
      match Scope.find scope aliasName with
      | some b => ((b.row.lookup name).getD .null, b.table.affinity? name)
      | none => (.null, none) := rfl

theorem both_eq_some_true {x y : Option Bool} :
    both x y = some true ↔ x = some true ∧ y = some true := by
  rcases x with _ | _ | _ <;> rcases y with _ | _ | _ <;> simp [both]

theorem allHold?_eq_some_true {ps : List Predicate} :
    allHold? scope ps = some true ↔ ∀ p ∈ ps, p.holds? scope = some true := by
  induction ps with
  | nil => simp [allHold?]
  | cons p ps ih => rw [allHold?, both_eq_some_true, ih, List.forall_mem_cons]

theorem Predicate.holds_iff {p : Predicate} :
    p.holds scope = true ↔ p.holds? scope = some true := by
  simp [holds]

mutual

theorem Predicate.holds_conjuncts :
    ∀ p : Predicate, p.holds? scope = some true →
      ∀ q ∈ p.conjuncts, q.holds? scope = some true
  | .all parts, h, q, hq => by
    rw [Predicate.holds?] at h
    rw [Predicate.conjuncts] at hq
    exact holds_allConjuncts parts h q hq
  | .compare .., h, q, hq => by
    rw [List.mem_singleton.mp hq]
    exact h
  | .oneOf .., h, q, hq => by
    rw [List.mem_singleton.mp hq]
    exact h
  | .never, h, q, hq => by
    rw [List.mem_singleton.mp hq]
    exact h

theorem holds_allConjuncts :
    ∀ ps : List Predicate, allHold? scope ps = some true →
      ∀ q ∈ allConjuncts ps, q.holds? scope = some true
  | [], _, _, hq => nomatch hq
  | p :: ps, h, q, hq => by
    obtain ⟨hp, hps⟩ := both_eq_some_true.mp h
    rw [allConjuncts] at hq
    rcases List.mem_append.mp hq with hq | hq
    · exact p.holds_conjuncts hp q hq
    · exact holds_allConjuncts ps hps q hq

end

theorem Expr.value_of_mentionsOnly {e : Expr} (he : e.mentionsOnly aliasName)
    (hb : Scope.find scope aliasName = some b) : e.value scope = e.value [b] := by
  cases e with
  | literal text => rfl
  | column a name =>
    obtain rfl : a = aliasName := by simpa [mentionsOnly] using he
    have hname : b.aliasName = a := by simpa using List.find?_some hb
    have hone : Scope.find [b] a = some b := hname ▸ Scope.find_cons_self b []
    rw [Expr.value_column, Expr.value_column, hb, hone]

theorem Predicate.holds_of_isLocal {p : Predicate} (hp : p.isLocal aliasName)
    (hb : Scope.find scope aliasName = some b) : p.holds? scope = p.holds? [b] := by
  cases p with
  | all parts => simp [isLocal] at hp
  | compare l op r =>
    obtain ⟨hl, hr⟩ : l.mentionsOnly aliasName ∧ r.mentionsOnly aliasName := by
      simpa [isLocal] using hp
    rw [holds?, holds?, Expr.value_of_mentionsOnly hl hb, Expr.value_of_mentionsOnly hr hb]
  | oneOf e values => rw [holds?, holds?, Expr.value_of_mentionsOnly hp hb]
  | never => rfl

/-- Parts that need one alias hold of its binding alone, when the whole holds in a scope. -/
theorem holds_local (p : Predicate) (hp : p.holds scope)
    (hb : Scope.find scope aliasName = some b) :
    (p.conjuncts.filter (Predicate.isLocal aliasName)).all (Predicate.holds [b]) := by
  rw [List.all_eq_true]
  intro q hq
  obtain ⟨hq, hlocal⟩ := List.mem_filter.mp hq
  rw [Predicate.holds_iff, ← Predicate.holds_of_isLocal hlocal hb]
  exact p.holds_conjuncts (Predicate.holds_iff.mp hp) q hq

theorem candidates_matching (j : OpenJoin) (scope : Scope) :
    ((candidates j.join.condition j.join.aliasName j.table j.rows).filter fun b =>
      j.join.condition.holds (b :: scope)) = (j.matching scope).map j.bind := by
  unfold candidates OpenJoin.matching
  rw [List.filter_filter, List.filter_map]
  congr 1
  apply List.filter_congr
  intro row _
  rw [Bool.eq_iff_iff]
  constructor
  · intro h
    exact (Bool.and_eq_true_iff.mp h).1
  · intro h
    exact Bool.and_eq_true_iff.mpr ⟨h, holds_local _ h (Scope.find_cons_self ..)⟩

theorem find_of_mem_extendAll {js : List OpenJoin}
    (hne : ∀ j ∈ js, j.join.aliasName ≠ aliasName) {scope' : Scope}
    (h : scope' ∈ extendAll js scope) :
    Scope.find scope' aliasName = Scope.find scope aliasName := by
  induction js generalizing scope with
  | nil => rw [List.mem_singleton.mp h]
  | cons j js ih =>
    obtain ⟨hj, hjs⟩ := List.forall_mem_cons.mp hne
    obtain ⟨mid, hmid, h⟩ := List.mem_flatMap.mp h
    rw [ih hjs h]
    have hrow : ∃ row, mid = j.bind row :: scope := by
      unfold OpenJoin.extend at hmid
      split at hmid
      · exact ⟨[], List.mem_singleton.mp hmid⟩
      · obtain ⟨row, -, rfl⟩ := List.mem_map.mp hmid
        exact ⟨row, rfl⟩
    obtain ⟨row, rfl⟩ := hrow
    exact Scope.find_cons_of_ne hj

end Query

namespace Database

variable {db : Database}

theorem join_eq (db : Database) (scopes : List Scope) (j : Join) :
    db.join scopes j = (db.openJoin j).map fun j => scopes.flatMap j.extend := by
  unfold join openJoin
  cases ht : db.tableRows j.table with
  | error fault => rfl
  | ok tr =>
    obtain ⟨t, rows⟩ := tr
    simp only [Except.map, bind, Except.bind, pure, Except.pure, Except.ok.injEq]
    congr 1
    funext scope
    rw [candidates_matching ⟨j, t, rows⟩ scope, OpenJoin.extend]
    cases j.kind <;> cases OpenJoin.matching ⟨j, t, rows⟩ scope <;> simp [OpenJoin.bind]

theorem foldlM_join (db : Database) (js : List Join) (scopes : List Scope) :
    js.foldlM db.join scopes =
      (js.mapM db.openJoin).map fun js => scopes.flatMap (extendAll js) := by
  induction js generalizing scopes with
  | nil => simp [extendAll, Except.map, pure, Except.pure]
  | cons j js ih =>
    rw [List.foldlM_cons, List.mapM_cons, join_eq]
    cases hj : db.openJoin j with
    | error fault => rfl
    | ok oj =>
      simp only [Except.map, bind, Except.bind, ih]
      cases js.mapM db.openJoin with
      | error fault => rfl
      | ok ojs => simp [extendAll, List.flatMap_assoc, pure, Except.pure]

theorem openJoin_join {j : Join} {oj : OpenJoin} (h : db.openJoin j = .ok oj) : oj.join = j := by
  unfold openJoin at h
  cases ht : db.tableRows j.table with
  | error fault => rw [ht] at h; cases h
  | ok tr => rw [ht] at h; cases h; rfl

theorem mem_of_mapM_openJoin {js : List Join} {ojs : List OpenJoin}
    (h : js.mapM db.openJoin = .ok ojs) : ∀ oj ∈ ojs, oj.join ∈ js := by
  induction js generalizing ojs with
  | nil => cases h; exact nofun
  | cons j js ih =>
    rw [List.mapM_cons] at h
    cases hj : db.openJoin j with
    | error fault => rw [hj] at h; cases h
    | ok oj =>
      rw [hj] at h
      cases hjs : js.mapM db.openJoin with
      | error fault => rw [hjs] at h; cases h
      | ok rest =>
        rw [hjs] at h
        cases h
        intro x hx
        rcases List.mem_cons.mp hx with rfl | hx
        · exact openJoin_join hj ▸ List.mem_cons_self
        · exact List.mem_cons_of_mem _ (ih hjs x hx)

/-- A row of the anchor table that the filter refuses by itself leads to no scope in the end. -/
theorem filter_extendAll_of_not_candidate {s : Select} {js : List OpenJoin} {b : Binding}
    (hne : ∀ j ∈ js, j.join.aliasName ≠ b.aliasName)
    (hb : ¬ (s.filter.conjuncts.filter (Predicate.isLocal b.aliasName)).all
      (Predicate.holds [b])) :
    (extendAll js [b]).filter (fun scope => s.filter.holds scope) = [] := by
  rw [List.filter_eq_nil_iff]
  intro scope hscope hholds
  have hfind := (find_of_mem_extendAll hne hscope).trans (Scope.find_cons_self b [])
  exact hb (holds_local _ hholds hfind)

/-- The answer to a statement that is not too deep is that of the nested loops, when no join hides
the anchor. -/
theorem select_eq_nestedLoops (db : Database) (s : Select) (hheight : s.height ≤ greatestHeight)
    (hne : ∀ j ∈ s.joins, j.aliasName ≠ s.aliasName) : db.select s = db.nestedLoops s := by
  unfold select nestedLoops
  rw [if_neg (Nat.not_lt.mpr hheight)]
  cases ht : db.tableRows s.table with
  | error fault => rfl
  | ok tr =>
    obtain ⟨t, rows⟩ := tr
    simp only [bind, Except.bind, pure, Except.pure, foldlM_join]
    cases hjs : s.joins.mapM db.openJoin with
    | error fault => rfl
    | ok js =>
      have hne' : ∀ j ∈ js, j.join.aliasName ≠ s.aliasName :=
        fun j hj => hne _ (mem_of_mapM_openJoin hjs j hj)
      simp only [Except.map, Except.ok.injEq]
      congr 1
      rw [List.filter_flatMap, List.filter_flatMap, List.flatMap_map]
      refine (flatMap_filter_of_nil _ ?_).trans (List.flatMap_map ..)
      intro b hb
      obtain ⟨row, -, rfl⟩ := List.mem_map.mp hb
      exact filter_extendAll_of_not_candidate (b := ⟨s.aliasName, t, row⟩) hne'

end Database

end StockScreen

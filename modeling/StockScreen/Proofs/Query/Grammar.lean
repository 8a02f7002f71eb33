import StockScreen.Database.Evaluate
import StockScreen.Proofs.Query.Token

/-! # The grammar of statements

A statement selects one expression from a table and its joins, under a
condition. Conditions are comparisons, choices from a list of texts, conditions
in parentheses, and conjunctions of these. They are true, false or undecided
when each column has a value.
-/

namespace StockScreen.Query

inductive Term
  | expr (e : Expr)
  | number (n : Nat)
  deriving DecidableEq, Repr

inductive Formula
  | compare (l : Term) (op : Comparison) (r : Term)
  | oneOf (t : Term) (values : List String)
  | both (f g : Formula)
  deriving DecidableEq, Repr

structure JoinClause where
  kind : JoinKind
  table : String
  aliasName : String
  condition : Formula
  deriving DecidableEq, Repr

structure Statement where
  column : Term
  heading : String
  table : String
  aliasName : String
  joins : List JoinClause
  filter : Formula
  deriving DecidableEq, Repr

/-! ## Reading tokens -/

def term? : List Token → Option (Term × List Token)
  | .name table :: .dot :: .word name :: rest => some (.expr (.column table name), rest)
  | .text s :: rest => some (.expr (.literal s), rest)
  | .number n :: rest => some (.number n, rest)
  | _ => none

def texts? : List Token → Option (List String × List Token)
  | .text s :: .closing :: rest => some ([s], rest)
  | .text s :: .comma :: ts => (texts? ts).map fun (values, rest) => (s :: values, rest)
  | _ => none

def comparison? (ts : List Token) : Option (Formula × List Token) :=
  match term? ts with
  | some (l, .op op :: ts) => (term? ts).map fun (r, rest) => (.compare l op r, rest)
  | some (t, .keyword .IN :: .opening :: ts) =>
    (texts? ts).map fun (values, rest) => (.oneOf t values, rest)
  | _ => none

mutual

/-- A conjunction of one part or more. That fewer tokens are left after a part always holds; it is
asked for because the reading ends with the tokens. -/
def conjunction? (ts : List Token) : Option (Formula × List Token) :=
  match part? ts with
  | some (f, rest) => if rest.length < ts.length then further? f rest else none
  | none => none
termination_by (ts.length, 1)

/-- The conjunction of what has been read with the further parts. -/
def further? (f : Formula) (ts : List Token) : Option (Formula × List Token) :=
  match ts with
  | .keyword .AND :: ts =>
    match part? ts with
    | some (g, rest) => if rest.length < ts.length then further? (.both f g) rest else none
    | none => none
  | ts => some (f, ts)
termination_by (ts.length, 0)

def part? (ts : List Token) : Option (Formula × List Token) :=
  match ts with
  | .opening :: ts =>
    match conjunction? ts with
    | some (f, .closing :: rest) => some (f, rest)
    | _ => none
  | ts => comparison? ts
termination_by (ts.length, 0)

end

def joinKind? : List Token → Option (JoinKind × List Token)
  | .keyword .LEFT :: .keyword .JOIN :: rest => some (.left, rest)
  | .keyword .JOIN :: rest => some (.inner, rest)
  | _ => none

def joined? (kind : JoinKind) : List Token → Option (JoinClause × List Token)
  | .word table :: .name aliasName :: .keyword .ON :: ts =>
    (conjunction? ts).map fun (f, rest) => (⟨kind, table, aliasName, f⟩, rest)
  | _ => none

def joins? (ts : List Token) : Option (List JoinClause × List Token) :=
  match joinKind? ts with
  | some (kind, rest) =>
    match joined? kind rest with
    | some (j, rest) =>
      if rest.length < ts.length then (joins? rest).map fun (js, rest) => (j :: js, rest) else none
    | none => none
  | none => some ([], ts)
termination_by ts.length

def filter? : List Token → Option (Formula × List Token)
  | .keyword .WHERE :: ts => conjunction? ts
  | _ => none

/-- A statement, and the tokens after it. -/
def statementFrom? : List Token → Option (Statement × List Token)
  | .keyword .SELECT :: ts =>
    match term? ts with
    | some (column, .keyword .AS :: .word heading :: .keyword .FROM :: .word table ::
        .name aliasName :: ts) => do
      let (joins, ts) ← joins? ts
      let (filter, rest) ← filter? ts
      some (⟨column, heading, table, aliasName, joins, filter⟩, rest)
    | _ => none
  | _ => none

def statement? (ts : List Token) : Option Statement :=
  match statementFrom? ts with
  | some (s, []) => some s
  | _ => none

def Statement.parse? (text : String) : Option Statement := (lex text.toList).bind statement?

/-! ## Rules of the grammar -/

section

variable {ts rest : List Token} {f g : Formula} {t : Term} {values : List String}

theorem length_of_term? (h : term? ts = some (t, rest)) : rest.length < ts.length := by
  unfold term? at h
  split at h <;> cases h <;> simp only [List.length_cons] <;> omega

theorem length_of_texts? (h : texts? ts = some (values, rest)) : rest.length < ts.length := by
  fun_induction texts? ts generalizing values rest with
  | case1 =>
    cases h
    simp only [List.length_cons]
    omega
  | case2 s ts ih =>
    obtain ⟨⟨vs, rest'⟩, hvs, heq⟩ := Option.map_eq_some_iff.mp h
    cases heq
    have := ih hvs
    simp only [List.length_cons]
    omega
  | case3 => cases h

theorem length_of_comparison? (h : comparison? ts = some (f, rest)) : rest.length < ts.length := by
  unfold comparison? at h
  split at h
  · next l op ts' hl =>
    obtain ⟨⟨r, rest'⟩, hr, heq⟩ := Option.map_eq_some_iff.mp h
    cases heq
    have := length_of_term? hl
    have := length_of_term? hr
    simp only [List.length_cons] at *
    omega
  · next t ts' ht =>
    obtain ⟨⟨values, rest'⟩, hvs, heq⟩ := Option.map_eq_some_iff.mp h
    cases heq
    have := length_of_term? ht
    have := length_of_texts? hvs
    simp only [List.length_cons] at *
    omega
  · cases h

theorem length_of_further? (h : further? f ts = some (g, rest)) : rest.length ≤ ts.length := by
  induction hn : ts.length using Nat.strongRecOn generalizing f ts with
  | _ n ih =>
    unfold further? at h
    split at h
    · next ts' =>
      split at h
      · next g' rest' hpart =>
        split at h
        · next hlt =>
          simp only [List.length_cons] at hn
          have := ih _ (by omega) h rfl
          omega
        · cases h
      · cases h
    · cases h
      exact Nat.le_of_eq hn

theorem length_of_conjunction? (h : conjunction? ts = some (f, rest)) :
    rest.length < ts.length := by
  rw [conjunction?] at h
  split at h
  · next g rest' hpart =>
    split at h
    · next hlt => exact Nat.lt_of_le_of_lt (length_of_further? h) hlt
    · cases h
  · cases h

theorem length_of_part? (h : part? ts = some (f, rest)) : rest.length < ts.length := by
  unfold part? at h
  split at h
  · next ts' =>
    split at h
    · next g rest' hconj =>
      cases h
      have := length_of_conjunction? hconj
      simp only [List.length_cons] at *
      omega
    · cases h
  · exact length_of_comparison? h

theorem length_of_joined? {kind : JoinKind} {j : JoinClause}
    (h : joined? kind ts = some (j, rest)) :
    rest.length < ts.length := by
  unfold joined? at h
  split at h
  · obtain ⟨⟨f, rest'⟩, hf, heq⟩ := Option.map_eq_some_iff.mp h
    cases heq
    have := length_of_conjunction? hf
    simp only [List.length_cons]
    omega
  · cases h

theorem length_of_joinKind? {kind : JoinKind} (h : joinKind? ts = some (kind, rest)) :
    rest.length < ts.length := by
  unfold joinKind? at h
  split at h <;> cases h <;> simp only [List.length_cons] <;> omega

theorem conjunction?_of_part? (h : part? ts = some (f, rest)) :
    conjunction? ts = further? f rest := by
  rw [conjunction?, h]
  exact if_pos (length_of_part? h)

theorem further?_and (h : part? ts = some (g, rest)) :
    further? f (.keyword .AND :: ts) = further? (.both f g) rest := by
  rw [further?, h]
  exact if_pos (length_of_part? h)

theorem further?_stop (h : ts.head? ≠ some (.keyword .AND)) : further? f ts = some (f, ts) := by
  unfold further?
  split
  · exact absurd rfl h
  · rfl

theorem part?_opening (h : conjunction? ts = some (f, .closing :: rest)) :
    part? (.opening :: ts) = some (f, rest) := by
  rw [part?, h]

theorem part?_of_comparison? (h : comparison? ts = some (f, rest)) :
    part? ts = some (f, rest) := by
  unfold part?
  split
  · next ts' => simp [comparison?, term?] at h
  · exact h

theorem joins?_join {kind : JoinKind} {j : JoinClause} {js : List JoinClause}
    {ts₁ ts₂ : List Token} (hkind : joinKind? ts = some (kind, ts₁))
    (hjoined : joined? kind ts₁ = some (j, ts₂)) (hjoins : joins? ts₂ = some (js, rest)) :
    joins? ts = some (j :: js, rest) := by
  have hlt := Nat.lt_trans (length_of_joined? hjoined) (length_of_joinKind? hkind)
  unfold joins?
  rw [hkind]
  simp only [hjoined, if_pos hlt, hjoins, Option.map_some]

theorem joins?_stop (h : joinKind? ts = none) : joins? ts = some ([], ts) := by
  unfold joins?
  rw [h]

end

/-! ## What conditions mention and mean -/

def Term.exprs : Term → List Expr
  | .expr e => [e]
  | .number _ => []

def Formula.exprs : Formula → List Expr
  | .compare l _ r => l.exprs ++ r.exprs
  | .oneOf t values => t.exprs ++ values.map .literal
  | .both f g => f.exprs ++ g.exprs

/-- A value for each column of each table. -/
abbrev Assignment := String → String → Cell × Option Affinity

def Expr.under (v : Assignment) : Expr → Cell × Option Affinity
  | .column table name => v table name
  | .literal text => (.text text, none)

def Term.under (v : Assignment) : Term → Cell × Option Affinity
  | .expr e => e.under v
  | .number n => (.integer n, none)

def chosen (x : Cell × Option Affinity) (values : List String) : Option Bool :=
  values.foldr (fun s => either (compareValues .equal x (.text s, none))) (some false)

def Formula.truth (v : Assignment) : Formula → Option Bool
  | .compare l op r => compareValues op (l.under v) (r.under v)
  | .oneOf t values => chosen (t.under v) values
  | .both f g => Query.both (f.truth v) (g.truth v)

mutual

def Predicate.truth (v : Assignment) : Predicate → Option Bool
  | .all parts => allTruth v parts
  | .compare l op r => compareValues op (l.under v) (r.under v)
  | .oneOf e values => chosen (e.under v) values
  | .never => some false

def allTruth (v : Assignment) : List Predicate → Option Bool
  | [] => some true
  | p :: ps => Query.both (p.truth v) (allTruth v ps)

end

/-- The rows of a scope give each column a value. -/
def Scope.assignment (scope : Scope) : Assignment := fun table name =>
  (Expr.column table name).value scope

mutual

/-- In a scope a predicate holds as it does under the values that the scope gives. -/
theorem Predicate.holds?_eq_truth (scope : Scope) :
    ∀ p : Predicate, p.holds? scope = p.truth (Scope.assignment scope)
  | .all parts => allHold?_eq_truth scope parts
  | .compare l op r => by
    cases l <;> cases r <;> rfl
  | .oneOf e values => by
    cases e <;> rfl
  | .never => rfl

theorem allHold?_eq_truth (scope : Scope) :
    ∀ ps : List Predicate, allHold? scope ps = allTruth (Scope.assignment scope) ps
  | [] => rfl
  | p :: ps => by
    rw [allHold?, allTruth, p.holds?_eq_truth scope, allHold?_eq_truth scope ps]

end

end StockScreen.Query

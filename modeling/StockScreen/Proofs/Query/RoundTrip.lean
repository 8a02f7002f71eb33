import Mathlib.Data.List.Forall2
import StockScreen.Proofs.Query.Grammar
import StockScreen.Proofs.Query.Lexing

/-! # Reading rendered statements back

The text of a statement with plain identifiers reads as one statement of the
grammar. It has the same tables, aliases and joins, mentions the same columns
and literals, and its conditions are as true as the original ones whatever the
values of the columns are.
-/

namespace StockScreen.Query

/-! ## The statement that a text reads as -/

def constant (n : Nat) : Formula := .compare (.number 1) .equal (.number n)

mutual

def Predicate.formula : Predicate → Formula
  | .all parts => allFormula parts
  | .compare l op r => .compare (.expr l) op (.expr r)
  | .oneOf _ [] => constant 0
  | .oneOf e values => .oneOf (.expr e) values
  | .never => constant 0

def allFormula : List Predicate → Formula
  | [] => constant 1
  | p :: rest => moreFormula p.formula rest

def moreFormula (f : Formula) : List Predicate → Formula
  | [] => f
  | p :: rest => moreFormula (.both f p.formula) rest

end

def Join.clause (j : Join) : JoinClause := ⟨j.kind, j.table, j.aliasName, j.condition.formula⟩

def Select.statement (s : Select) : Statement :=
  ⟨.expr s.column, s.heading, s.table, s.aliasName, s.joins.map Join.clause, s.filter.formula⟩

/-! ## Its tokens are read to the end -/

theorem term?_tokens (e : Expr) (rest : List Token) :
    term? (e.tokens ++ rest) = some (.expr e, rest) := by
  cases e <;> rfl

theorem comparison?_constant (n : Nat) (rest : List Token) :
    comparison? (constantTokens n ++ rest) = some (constant n, rest) := rfl

theorem texts?_listed (s : String) (values : List String) (rest : List Token) :
    texts? (listedTokens (s :: values) ++ .closing :: rest) = some (s :: values, rest) := by
  induction values generalizing s with
  | nil => rfl
  | cons s' values ih =>
    rw [listedTokens, List.cons_append, List.cons_append, texts?, ih]
    · rfl
    · simp

theorem comparison?_compare (l : Expr) (op : Comparison) (r : Expr) (rest : List Token) :
    comparison? (l.tokens ++ [.op op] ++ r.tokens ++ rest) =
      some (.compare (.expr l) op (.expr r), rest) := by
  rw [List.append_assoc, List.append_assoc, comparison?, term?_tokens]
  simp only [List.singleton_append, term?_tokens, Option.map_some]

theorem comparison?_oneOf (e : Expr) (s : String) (values : List String) (rest : List Token) :
    comparison? (e.tokens ++ [.keyword .IN, .opening] ++ listedTokens (s :: values) ++ [.closing] ++
      rest) = some (.oneOf (.expr e) (s :: values), rest) := by
  rw [List.append_assoc, List.append_assoc, List.append_assoc, comparison?, term?_tokens]
  simp only [List.cons_append, List.nil_append, texts?_listed, Option.map_some]

mutual

theorem Predicate.part?_tokens :
    ∀ (p : Predicate) (rest : List Token), part? (p.tokens true ++ rest) = some (p.formula, rest)
  | .all parts, rest => part?_all parts rest
  | .compare l op r, rest => part?_of_comparison? (comparison?_compare l op r rest)
  | .oneOf _ [], rest => part?_of_comparison? (comparison?_constant 0 rest)
  | .oneOf e (s :: values), rest => part?_of_comparison? (comparison?_oneOf e s values rest)
  | .never, rest => part?_of_comparison? (comparison?_constant 0 rest)

theorem part?_all : ∀ (ps : List Predicate) (rest : List Token),
    part? (allTokens true ps ++ rest) = some (allFormula ps, rest)
  | [], rest => part?_of_comparison? (comparison?_constant 1 rest)
  | [p], rest => p.part?_tokens rest
  | p :: q :: ps, rest => by
    -- Two parts or more stand in parentheses, so what follows them cannot join the conjunction.
    have hfirst := p.part?_tokens (moreTokens (q :: ps) ++ .closing :: rest)
    have hmore := further?_more (q :: ps) p.formula (.closing :: rest) (by simp)
    have hparts := part?_opening ((conjunction?_of_part? hfirst).trans hmore)
    simpa [allTokens, allFormula] using hparts

theorem further?_more : ∀ (ps : List Predicate) (f : Formula) (rest : List Token),
    rest.head? ≠ some (.keyword .AND) →
    further? f (moreTokens ps ++ rest) = some (moreFormula f ps, rest)
  | [], _, _, h => further?_stop h
  | p :: ps, f, rest, h => by
    have hfirst := p.part?_tokens (moreTokens ps ++ rest)
    have hmore := further?_more ps (.both f p.formula) rest h
    rw [moreTokens, List.append_assoc, List.cons_append, further?_and hfirst, hmore]
    rfl

end

theorem conjunction?_single {ts rest : List Token} {f : Formula} (h : part? ts = some (f, rest))
    (hrest : rest.head? ≠ some (.keyword .AND)) : conjunction? ts = some (f, rest) :=
  (conjunction?_of_part? h).trans (further?_stop hrest)

mutual

theorem Predicate.conjunction?_tokens : ∀ (p : Predicate) (rest : List Token),
    rest.head? ≠ some (.keyword .AND) →
    conjunction? (p.tokens false ++ rest) = some (p.formula, rest)
  | .all parts, rest, h => conjunction?_all parts rest h
  | .compare l op r, rest, h =>
    conjunction?_single (Predicate.part?_tokens (.compare l op r) rest) h
  | .oneOf e [], rest, h => conjunction?_single (Predicate.part?_tokens (.oneOf e []) rest) h
  | .oneOf e (s :: values), rest, h =>
    conjunction?_single (Predicate.part?_tokens (.oneOf e (s :: values)) rest) h
  | .never, rest, h => conjunction?_single (Predicate.part?_tokens .never rest) h

theorem conjunction?_all : ∀ (ps : List Predicate) (rest : List Token),
    rest.head? ≠ some (.keyword .AND) →
    conjunction? (allTokens false ps ++ rest) = some (allFormula ps, rest)
  | [], rest, h => conjunction?_single (part?_all [] rest) h
  | [p], rest, h => p.conjunction?_tokens rest h
  | p :: q :: ps, rest, h => by
    have hfirst := p.part?_tokens (moreTokens (q :: ps) ++ rest)
    have hmore := further?_more (q :: ps) p.formula rest h
    have hparts := (conjunction?_of_part? hfirst).trans hmore
    simpa [allTokens, allFormula] using hparts

end

theorem joinKind?_tokens (kind : JoinKind) (rest : List Token) :
    joinKind? (kind.tokens ++ rest) = some (kind, rest) := by
  cases kind <;> rfl

theorem head?_joins (joins : List Join) (ts : List Token) :
    (joins.flatMap Join.tokens ++ .keyword .WHERE :: ts).head? ≠ some (.keyword .AND) := by
  cases joins with
  | nil => simp
  | cons j joins => cases hkind : j.kind <;> simp [Join.tokens, JoinKind.tokens, hkind]

theorem joins?_tokens (joins : List Join) (ts : List Token) :
    joins? (joins.flatMap Join.tokens ++ .keyword .WHERE :: ts) =
      some (joins.map Join.clause, .keyword .WHERE :: ts) := by
  induction joins with
  | nil => exact joins?_stop rfl
  | cons j joins ih =>
    have hcondition := j.condition.conjunction?_tokens _ (head?_joins joins ts)
    have hjoined : joined? j.kind (.word j.table :: .name j.aliasName :: .keyword .ON ::
        (j.condition.tokens false ++ (joins.flatMap Join.tokens ++ .keyword .WHERE :: ts))) =
        some (j.clause, joins.flatMap Join.tokens ++ .keyword .WHERE :: ts) := by
      rw [joined?, hcondition]
      rfl
    have hjoin := joins?_join (joinKind?_tokens j.kind _) hjoined ih
    simpa [Join.tokens] using hjoin

theorem statementFrom?_tokens (s : Select) {rest : List Token}
    (h : rest.head? ≠ some (.keyword .AND)) :
    statementFrom? (s.tokens ++ rest) = some (s.statement, rest) := by
  have hcolumn := term?_tokens s.column (.keyword .AS :: .word s.heading :: .keyword .FROM ::
    .word s.table :: .name s.aliasName ::
    (s.joins.flatMap Join.tokens ++ .keyword .WHERE :: (s.filter.tokens false ++ rest)))
  simp only [Select.tokens, List.cons_append, List.append_assoc, List.nil_append, statementFrom?,
    hcolumn, joins?_tokens, Option.bind_eq_bind, Option.bind_some, filter?,
    s.filter.conjunction?_tokens rest h]
  rfl

theorem statement?_tokens (s : Select) : statement? s.tokens = some s.statement := by
  have hend : ([] : List Token).head? ≠ some (.keyword .AND) := nofun
  have h := statementFrom?_tokens s hend
  rw [List.append_nil] at h
  rw [statement?, h]

/-! ## It says the same -/

theorem both_true_right (x : Option Bool) : both x (some true) = x := by
  rcases x with _ | _ | _ <;> rfl

theorem both_assoc (x y z : Option Bool) : both (both x y) z = both x (both y z) := by
  rcases x with _ | _ | _ <;> rcases y with _ | _ | _ <;> rcases z with _ | _ | _ <;> rfl

mutual

theorem Predicate.exprs_formula : ∀ p : Predicate, p.formula.exprs = p.exprs
  | .all parts => exprs_allFormula parts
  | .compare _ _ _ => rfl
  | .oneOf _ [] => rfl
  | .oneOf _ (_ :: _) => rfl
  | .never => rfl

theorem exprs_allFormula : ∀ ps : List Predicate, (allFormula ps).exprs = allExprs ps
  | [] => rfl
  | p :: ps => by
    rw [allFormula, exprs_moreFormula ps, p.exprs_formula, allExprs]

theorem exprs_moreFormula : ∀ (ps : List Predicate) (f : Formula),
    (moreFormula f ps).exprs = f.exprs ++ allExprs ps
  | [], f => (List.append_nil f.exprs).symm
  | p :: ps, f => by
    rw [moreFormula, exprs_moreFormula ps, Formula.exprs, p.exprs_formula, List.append_assoc,
      allExprs]

end

section

variable (v : Assignment)

mutual

theorem Predicate.truth_formula : ∀ p : Predicate, p.formula.truth v = p.truth v
  | .all parts => truth_allFormula parts
  | .compare _ _ _ => rfl
  | .oneOf _ [] => rfl
  | .oneOf _ (_ :: _) => rfl
  | .never => rfl

theorem truth_allFormula : ∀ ps : List Predicate, (allFormula ps).truth v = allTruth v ps
  | [] => rfl
  | p :: ps => by
    rw [allFormula, truth_moreFormula ps, p.truth_formula, allTruth]

/-- Reading from the left groups a conjunction to the left, which its truth does not depend on. -/
theorem truth_moreFormula : ∀ (ps : List Predicate) (f : Formula),
    (moreFormula f ps).truth v = both (f.truth v) (allTruth v ps)
  | [], f => (both_true_right (f.truth v)).symm
  | p :: ps, f => by
    rw [moreFormula, truth_moreFormula ps, Formula.truth, p.truth_formula, both_assoc, allTruth]

end

end

/-- A condition mentions the columns and the literals of a predicate, in their order, and is as true
as the predicate under each value of the columns. -/
structure Formula.Says (f : Formula) (p : Predicate) : Prop where
  exprs : f.exprs = p.exprs
  truth : ∀ v, f.truth v = p.truth v

structure JoinClause.Says (c : JoinClause) (j : Join) : Prop where
  kind : c.kind = j.kind
  table : c.table = j.table
  aliasName : c.aliasName = j.aliasName
  condition : c.condition.Says j.condition

structure Statement.Says (t : Statement) (s : Select) : Prop where
  column : t.column = .expr s.column
  heading : t.heading = s.heading
  table : t.table = s.table
  aliasName : t.aliasName = s.aliasName
  joins : List.Forall₂ JoinClause.Says t.joins s.joins
  filter : t.filter.Says s.filter

theorem Predicate.says_formula (p : Predicate) : p.formula.Says p :=
  ⟨p.exprs_formula, fun v => p.truth_formula v⟩

theorem Select.says_statement (s : Select) : s.statement.Says s where
  column := rfl
  heading := rfl
  table := rfl
  aliasName := rfl
  joins := by
    refine List.forall₂_map_left_iff.mpr (List.forall₂_same.mpr fun j _ => ?_)
    exact ⟨rfl, rfl, rfl, j.condition.says_formula⟩
  filter := s.filter.says_formula

/-- The text of a statement is read to its end, whatever texts stand in its aliases, its literals
and its lists, and what is read says the same as the statement. -/
theorem Select.text_reads_back (s : Select) (h : s.Plain) :
    ∃ t, Statement.parse? s.text = some t ∧ t.Says s := by
  refine ⟨s.statement, ?_, s.says_statement⟩
  rw [Statement.parse?, Select.text, String.toList_ofList, (Select.lexes h).lex_eq]
  exact statement?_tokens s

def misleading : Select where
  column := .column "a\" AS b" "stock_id"
  heading := "stock_id"
  table := "stocks"
  aliasName := "a\" AS b"
  joins := [
    ⟨.left, "prices", "\" ON 1 = 1\nWHERE \"",
      .compare (.column "\" ON 1 = 1\nWHERE \"" "stock_id") .equal (.column "a\" AS b" "stock_id")⟩,
    ⟨.inner, "reports", "",
      .all [.all [.compare (.column "" "amount") .atLeast (.literal "'")], .all []]⟩]
  filter := .all [
    .all [.compare (.column "" "line") .less (.literal "x' AND 1 = 0) --"),
      .all [.never, .oneOf (.column "" "line") []]],
    .oneOf (.column "a\" AS b" "stock_id") ["2330", "', '", "') SELECT", "\n", ""]]

theorem misleading_reads_back : misleading.Plain ∧
    ∃ t, Statement.parse? misleading.text = some t ∧ t.Says misleading :=
  ⟨by decide +kernel, misleading.text_reads_back (by decide +kernel)⟩

end StockScreen.Query

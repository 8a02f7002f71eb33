import StockScreen.Proofs.Planning.Meaning
import StockScreen.Proofs.Query.Lexing

/-! # Identifiers of a plan

The tables of the schema are identifiers without quotes, and so are the columns
of every row's key. A plan for columns that are such identifiers, with tables
of the schema, has a statement that names nothing else.
-/

namespace StockScreen

open Query

theorem Timeframe.plain_table (tf : Timeframe) (kind : TableKind) :
    Query.Plain (tf.table kind) := by
  cases tf <;> cases kind <;> decide +kernel

theorem Timeframe.plain_timeColumn (tf : Timeframe) : Query.Plain tf.timeColumn := by
  cases tf <;> decide +kernel

theorem plain_entityColumn : Query.Plain entityColumn := by decide +kernel

theorem Table.plain_name {t : Table} (ht : t ∈ Table.all) : Query.Plain t.name := by
  have hfund : ∀ name ∈ Standard.fundamentalTables, Query.Plain name := by decide +kernel
  rcases Table.mem_all.mp ht with ⟨tf, kind, rfl⟩ | ⟨name, hname, rfl⟩ | rfl
  · exact tf.plain_table kind
  · exact hfund name hname
  · decide +kernel

namespace Plan

variable {tf : Timeframe} {cs : List Condition} {w : Window} {allow : Option (List String)}
  {p : Plan}

theorem plain_entity (a : String) : (entity a).Plain := Expr.plain_column plain_entityColumn a

theorem plain_time (p : Plan) (a : String) : (Expr.column a p.timeframe.timeColumn).Plain :=
  Expr.plain_column p.timeframe.plain_timeColumn a

theorem plain_equal {l r : Expr} (hl : l.Plain) (hr : r.Plain) : (equal l r).Plain :=
  Predicate.plain_compare hl .equal hr

theorem plain_join {j : Join} (hj : j ∈ p.query.joins) : j.condition.Plain := by
  have hentity : ∀ a b, (equal (entity a) (entity b)).Plain := fun a b =>
    plain_equal (plain_entity a) (plain_entity b)
  rcases mem_query_joins.mp hj with rfl | ⟨d, -, rfl⟩ | ⟨name, -, rfl⟩
  · exact Predicate.plain_all (List.forall_mem_cons.mpr ⟨hentity _ _,
      List.forall_mem_singleton.mpr (plain_equal (p.plain_time _) (p.plain_time _))⟩)
  · exact Predicate.plain_all (List.forall_mem_cons.mpr ⟨hentity _ _,
      List.forall_mem_singleton.mpr (plain_equal (p.plain_time _) (Expr.plain_literal _))⟩)
  · exact hentity _ _

theorem plain_conditionPredicate {c : Condition} (h : ∀ col ∈ c.columns, Query.Plain col.column) :
    (p.conditionPredicate c).Plain := by
  unfold conditionPredicate
  split
  · exact Predicate.plain_never
  · have hleft : (expr c.left).Plain := Expr.plain_column (h c.left List.mem_cons_self) _
    refine Predicate.plain_compare hleft c.operator ?_
    rcases c with ⟨left, op, right | text⟩
    · exact Expr.plain_column (h right (by simp [Condition.columns, Operand.column?])) _
    · exact Expr.plain_literal text

theorem plain_query (htables : ∀ j ∈ p.query.joins, Query.Plain j.table)
    (hcolumns : ∀ c ∈ p.conditions, ∀ col ∈ c.columns, Query.Plain col.column) :
    p.query.Plain where
  column := plain_entity _
  heading := plain_entityColumn
  table := p.timeframe.plain_table .raw
  joins j hj := ⟨htables j hj, plain_join hj⟩
  filter := by
    refine Predicate.plain_all fun q hq => ?_
    rcases List.mem_cons.mp hq with rfl | hq
    · unfold datePredicate
      split
      · exact plain_equal (p.plain_time _) (Expr.plain_literal _)
      · exact Predicate.plain_never
    rcases List.mem_append.mp hq with hq | hq
    · obtain ⟨ids, -, rfl⟩ := List.mem_map.mp hq
      exact Predicate.plain_oneOf (plain_entity _) ids
    · obtain ⟨c, hc, rfl⟩ := List.mem_map.mp hq
      exact plain_conditionPredicate (hcolumns c hc)

end Plan

end StockScreen

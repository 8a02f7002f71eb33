import Mathlib.Data.List.Perm.Subperm
import StockScreen.Proofs.Planning.Meaning
import StockScreen.Proofs.Screening.Compilation

/-! # Columns of a statement

A statement resolves when each column that it mentions stands under an alias
of its own, for a table of the schema that has the column. The statements of
compiled prompts resolve for every window, and they stay small: a timeframe has
few labels, so that there are few tables to be joined.
-/

namespace StockScreen

namespace Query

/-- An expression stands somewhere in a predicate. -/
inductive Predicate.Mentions (e : Expr) : Predicate → Prop
  | all {parts : List Predicate} {p : Predicate} (hp : p ∈ parts) (h : p.Mentions e) :
    Mentions e (.all parts)
  | left (op : Comparison) (r : Expr) : Mentions e (.compare e op r)
  | right (l : Expr) (op : Comparison) : Mentions e (.compare l op e)
  | oneOf (values : List String) : Mentions e (.oneOf e values)

def Select.Mentions (s : Select) (e : Expr) : Prop :=
  s.column = e ∨ s.filter.Mentions e ∨ ∃ j ∈ s.joins, j.condition.Mentions e

def Select.sources (s : Select) : List (String × String) :=
  (s.aliasName, s.table) :: s.joins.map fun j => (j.aliasName, j.table)

/-- An alias of the statement stands for a table of the schema that has the column. -/
def Select.HasColumn (s : Select) (aliasName column : String) : Prop :=
  ∃ table columns, (aliasName, table) ∈ s.sources ∧ tableColumns? table = some columns ∧
    column ∈ columns

/-- Aliases are distinct, tables are those of the schema, and every column is one of the table
under its alias. A join mentions no alias but the anchor's and its own. -/
structure Select.Resolves (s : Select) : Prop where
  distinct : (s.sources.map Prod.fst).Nodup
  tables : ∀ source ∈ s.sources, source.2 ∈ Table.all.map Table.name
  columns : ∀ aliasName column, s.Mentions (.column aliasName column) →
    s.HasColumn aliasName column
  joins : ∀ j ∈ s.joins, ∀ aliasName column, j.condition.Mentions (.column aliasName column) →
    aliasName = s.aliasName ∨ aliasName = j.aliasName

variable {e : Expr} {parts : List Predicate} {p : Predicate}

@[simp] theorem mentions_all : (Predicate.all parts).Mentions e ↔ ∃ p ∈ parts, p.Mentions e := by
  constructor
  · rintro ⟨⟩
    exact ⟨_, ‹_›, ‹_›⟩
  · rintro ⟨p, hp, h⟩
    exact .all hp h

@[simp] theorem mentions_compare {l r : Expr} {op : Comparison} :
    (Predicate.compare l op r).Mentions e ↔ e = l ∨ e = r := by
  constructor
  · rintro ⟨⟩
    · exact .inl rfl
    · exact .inr rfl
  · rintro (rfl | rfl)
    · exact .left op r
    · exact .right l op

@[simp] theorem mentions_oneOf {e' : Expr} {values : List String} :
    (Predicate.oneOf e' values).Mentions e ↔ e = e' := by
  constructor
  · rintro ⟨⟩
    rfl
  · rintro rfl
    exact .oneOf values

@[simp] theorem not_mentions_never : ¬ Predicate.never.Mentions e := nofun

end Query

namespace Table

variable {t : Table} {column : String}

theorem tableColumns?_name (ht : t ∈ all) :
    tableColumns? t.name = some (ascending t.columnNames) := by
  rw [tableColumns?, find?_name ht]
  rfl

theorem mem_columnNames_of_mem_key (h : column ∈ t.key) : column ∈ t.columnNames := by
  rw [columnNames, columns, List.map_append, List.map_map]
  exact List.mem_append_left _ (List.mem_map.mpr ⟨column, h, rfl⟩)

theorem mem_columnNames_of_mem_values {c : Column} (h : c ∈ t.values) : c.name ∈ t.columnNames :=
  List.mem_map_of_mem (List.mem_append_right _ h)

theorem entityColumn_mem_key (t : Table) : entityColumn ∈ t.key := by
  cases t <;> exact List.mem_cons_self

end Table

def Home.table (tf : Timeframe) : Home → Table
  | timeframe kind => .timeframe tf kind
  | fundamental name => .fundamental name

theorem Standard.mem_columnNames {tf : Timeframe} {entry : Indicator}
    (h : entry ∈ (catalogs.timeframe tf).entries ++ catalogs.fundamentals.entries) :
    entry.column ∈ (entry.home.table tf).columnNames := by
  have htf : catalogs.timeframe tf = timeframeCatalog tf := by cases tf <;> rfl
  have hraw : ∀ c ∈ rawColumns, c.2 ∈ (Table.timeframe tf .raw).values.map Column.name := by
    cases tf <;> decide
  rw [htf] at h
  rcases List.mem_append.mp h with h | h
  · rcases List.mem_append.mp h with h | h
    · obtain ⟨c, hc, rfl⟩ := List.mem_map.mp h
      obtain ⟨v, hv, hname⟩ := List.mem_map.mp (hraw c hc)
      have hmem := Table.mem_columnNames_of_mem_values hv
      rw [hname] at hmem
      exact hmem
    · obtain ⟨⟨_, column⟩, hc, rfl⟩ := List.mem_map.mp h
      have hv : ⟨column, .real⟩ ∈ (Table.timeframe tf .derived).values :=
        List.mem_map.mpr ⟨_, hc, rfl⟩
      exact Table.mem_columnNames_of_mem_values hv
  · obtain ⟨⟨_, column, name⟩, hc, rfl⟩ := List.mem_map.mp h
    have hv : ⟨column, .real⟩ ∈ (Table.fundamental name).values :=
      List.mem_map.mpr ⟨_, List.mem_filter.mpr ⟨hc, by simp⟩, rfl⟩
    exact Table.mem_columnNames_of_mem_values hv

namespace ColumnRef.Standard

variable {tf : Timeframe} {col : ColumnRef}

theorem home_mem_all (h : col.Standard tf) : col.home ∈ Table.all := by
  unfold home
  split
  · exact Plan.timeframe_mem_all ..
  · next name ht =>
    exact Table.mem_all.mpr (.inr (.inl ⟨name, Plan.fundamental_of_standard h ht, rfl⟩))

theorem mem_columnNames (h : col.Standard tf) : col.column ∈ col.home.columnNames := by
  obtain ⟨rfl, entry, hentry, hcolumn, hhome⟩ := h
  have htable : entry.home.table col.timeframe = col.home := by
    unfold home
    split at hhome <;> simp only [*, Home.table]
  rw [← hcolumn, ← htable]
  exact StockScreen.Standard.mem_columnNames hentry

end ColumnRef.Standard

namespace Plan

open Query

variable {tf : Timeframe} {cs : List Condition} {w : Window} {allow : Option (List String)}
  {p : Plan}

theorem hasColumn_of_mem {aliasName column : String} {t : Table} {s : Select}
    (h : (aliasName, t.name) ∈ s.sources) (ht : t ∈ Table.all) (hcolumn : column ∈ t.columnNames) :
    s.HasColumn aliasName column :=
  ⟨t.name, _, h, Table.tableColumns?_name ht, (mem_ascending _).mpr hcolumn⟩

theorem anchor_mem_sources (p : Plan) :
    (p.anchorAlias, (Table.timeframe p.timeframe .raw).name) ∈ p.query.sources :=
  List.mem_cons_self

theorem mem_sources_of_join {j : Join} (h : j ∈ p.query.joins) :
    (j.aliasName, j.table) ∈ p.query.sources :=
  List.mem_cons_of_mem _ (List.mem_map_of_mem h)

theorem sources_aliases (p : Plan) :
    p.query.sources.map Prod.fst = p.anchorAlias :: p.query.joins.map Join.aliasName := by
  rw [Select.sources, List.map_cons, List.map_map]
  rfl

theorem mem_sources_of_column {col : ColumnRef} (hcol : col ∈ cs.flatMap Condition.columns)
    (htf : col.timeframe = tf) (hkept : (make tf cs w allow).isDropped col = false) :
    (col.aliasName, col.home.name) ∈ (make tf cs w allow).query.sources := by
  obtain ⟨tf', target, column⟩ := col
  obtain rfl : tf' = tf := htf
  match target with
  | .shifted 0 .raw => exact anchor_mem_sources (make tf' cs w allow)
  | .shifted 0 .derived => exact mem_sources_of_join (anchorJoin_mem (make tf' cs w allow))
  | .shifted (offset + 1) kind =>
    have hs : ⟨offset + 1, kind⟩ ∈ referenced cs := mem_referenced.mpr ⟨_, hcol, rfl⟩
    obtain ⟨date, hd⟩ := exists_date hs (by simpa [isDropped] using hkept)
    exact mem_sources_of_join (shiftJoin_mem (mem_joins hs hd))
  | .table name =>
    have hname : name ∈ referencedTables cs := mem_referencedTables.mpr ⟨_, hcol, rfl⟩
    exact mem_sources_of_join (p := make tf' cs w allow) (tableJoin_mem hname)

theorem shiftAlias_not_mem {d : Shift} (hcs : ∀ c ∈ cs, ∀ col ∈ c.columns, col.Standard tf)
    (hd : d ∈ (make tf cs w allow).dropped) (table : String) :
    ((make tf cs w allow).shiftAlias d, table) ∉ (make tf cs w allow).query.sources := by
  intro h
  have hmem := List.mem_map_of_mem (f := Prod.fst) h
  rw [sources_aliases, aliases_eq] at hmem
  obtain ⟨href, hnone⟩ := List.mem_filter.mp hd
  rcases List.mem_append.mp hmem with hmem | hmem
  · obtain ⟨s, hs, hsame⟩ := List.mem_map.mp hmem
    obtain ⟨ho, hk⟩ := Timeframe.aliasAt_injective hsame
    have hpos := offset_pos_of_mem_referenced href
    rcases List.mem_cons.mp hs with rfl | hs
    · exact absurd ho.symm (Nat.pos_iff_ne_zero.mp hpos)
    · rcases List.mem_cons.mp hs with rfl | hs
      · exact absurd ho.symm (Nat.pos_iff_ne_zero.mp hpos)
      · obtain ⟨j, hj, rfl⟩ := List.mem_map.mp hs
        rw [← ho, (shift_of_mem_joins hj).2] at hnone
        cases hnone
  · exact Timeframe.aliasAt_ne_fundamental tf d.offset d.kind (fundamental_of_mem hcs hmem) rfl

section

variable (hcs : ∀ c ∈ cs, ∀ col ∈ c.columns, col.Standard tf)
include hcs

theorem exists_table {source : String × String}
    (h : source ∈ (make tf cs w allow).query.sources) :
    ∃ t ∈ Table.all, source.2 = t.name := by
  rcases List.mem_cons.mp h with rfl | h
  · exact ⟨_, timeframe_mem_all tf .raw, rfl⟩
  · obtain ⟨j, hj, rfl⟩ := List.mem_map.mp h
    rcases mem_query_joins.mp hj with rfl | ⟨d, -, rfl⟩ | ⟨name, hname, rfl⟩
    · exact ⟨_, timeframe_mem_all tf .derived, rfl⟩
    · exact ⟨_, timeframe_mem_all tf d.shift.kind, rfl⟩
    · exact ⟨_, Table.mem_all.mpr (.inr (.inl ⟨name, fundamental_of_mem hcs hname, rfl⟩)), rfl⟩

theorem hasColumn_entity {aliasName table : String}
    (h : (aliasName, table) ∈ (make tf cs w allow).query.sources) :
    (make tf cs w allow).query.HasColumn aliasName entityColumn := by
  obtain ⟨t, ht, rfl⟩ := exists_table hcs h
  exact hasColumn_of_mem h ht (Table.mem_columnNames_of_mem_key t.entityColumn_mem_key)

omit hcs in
theorem hasColumn_time {aliasName : String} {kind : TableKind}
    (h : (aliasName, tf.table kind) ∈ (make tf cs w allow).query.sources) :
    (make tf cs w allow).query.HasColumn aliasName tf.timeColumn :=
  hasColumn_of_mem (t := .timeframe tf kind) h (timeframe_mem_all tf kind)
    (Table.mem_columnNames_of_mem_key (List.mem_cons_of_mem _ List.mem_cons_self))

theorem hasColumn_anchor (column : String)
    (h : column = entityColumn ∨ column = tf.timeColumn) :
    (make tf cs w allow).query.HasColumn (make tf cs w allow).anchorAlias column := by
  have hanchor := anchor_mem_sources (make tf cs w allow)
  rcases h with rfl | rfl
  · exact hasColumn_entity hcs hanchor
  · exact hasColumn_time hanchor

theorem hasColumn_join {j : Join} (hj : j ∈ (make tf cs w allow).query.joins)
    {aliasName column : String} (h : j.condition.Mentions (.column aliasName column)) :
    (aliasName = (make tf cs w allow).anchorAlias ∨ aliasName = j.aliasName) ∧
      (make tf cs w allow).query.HasColumn aliasName column := by
  have hsource := mem_sources_of_join hj
  have hown := hasColumn_entity hcs hsource
  have hanchor : ∀ column, column = entityColumn ∨ column = tf.timeColumn →
      (make tf cs w allow).query.HasColumn (make tf cs w allow).anchorAlias column :=
    hasColumn_anchor hcs
  rcases mem_query_joins.mp hj with rfl | ⟨d, -, rfl⟩ | ⟨name, -, rfl⟩
  · have htime : (make tf cs w allow).query.HasColumn (make tf cs w allow).derivedAlias
        tf.timeColumn := hasColumn_time hsource
    simp only [anchorJoin, equal, entity, mentions_all, List.mem_cons, List.not_mem_nil, or_false,
      exists_eq_or_imp, exists_eq_left, mentions_compare, Expr.column.injEq] at h
    rcases h with (⟨rfl, rfl⟩ | ⟨rfl, rfl⟩) | ⟨rfl, rfl⟩ | ⟨rfl, rfl⟩
    · exact ⟨.inl rfl, hanchor _ (.inl rfl)⟩
    · exact ⟨.inr rfl, hown⟩
    · exact ⟨.inl rfl, hanchor _ (.inr rfl)⟩
    · exact ⟨.inr rfl, htime⟩
  · have htime : (make tf cs w allow).query.HasColumn ((make tf cs w allow).shiftAlias d.shift)
        tf.timeColumn := hasColumn_time hsource
    simp only [shiftJoin, equal, entity, mentions_all, List.mem_cons, List.not_mem_nil, or_false,
      exists_eq_or_imp, exists_eq_left, mentions_compare, Expr.column.injEq, reduceCtorEq] at h
    rcases h with (⟨rfl, rfl⟩ | ⟨rfl, rfl⟩) | ⟨rfl, rfl⟩
    · exact ⟨.inl rfl, hanchor _ (.inl rfl)⟩
    · exact ⟨.inr rfl, hown⟩
    · exact ⟨.inr rfl, htime⟩
  · simp only [tableJoin, equal, entity, mentions_compare, Expr.column.injEq] at h
    rcases h with ⟨rfl, rfl⟩ | ⟨rfl, rfl⟩
    · exact ⟨.inl rfl, hanchor _ (.inl rfl)⟩
    · exact ⟨.inr rfl, hown⟩

theorem hasColumn_column {c : Condition} {col : ColumnRef} (hc : c ∈ cs) (hcol : col ∈ c.columns)
    (hkept : (make tf cs w allow).isDropped col = false) :
    (make tf cs w allow).query.HasColumn col.aliasName col.column := by
  have hstandard := hcs c hc col hcol
  have hmem : col ∈ cs.flatMap Condition.columns := List.mem_flatMap.mpr ⟨c, hc, hcol⟩
  exact hasColumn_of_mem (mem_sources_of_column hmem hstandard.1 hkept) hstandard.home_mem_all
    hstandard.mem_columnNames

theorem hasColumn_condition {c : Condition} (hc : c ∈ cs) {aliasName column : String}
    (h : ((make tf cs w allow).conditionPredicate c).Mentions (.column aliasName column)) :
    (make tf cs w allow).query.HasColumn aliasName column := by
  unfold conditionPredicate at h
  split at h
  · cases h
  · next hkept =>
    have hcolumn : ∀ col ∈ c.columns, Expr.column aliasName column = expr col →
        (make tf cs w allow).query.HasColumn aliasName column := by
      rintro col hcol ⟨⟩
      refine hasColumn_column hcs hc hcol ?_
      simpa using fun hdropped => hkept (List.any_eq_true.mpr ⟨col, hcol, hdropped⟩)
    rcases mentions_compare.mp h with h | h
    · exact hcolumn c.left List.mem_cons_self h
    · unfold operandExpr at h
      split at h
      · next col hright =>
        exact hcolumn col (List.mem_cons_of_mem _ (by simp [hright, Operand.column?])) h
      · cases h

theorem hasColumn_filter {aliasName column : String}
    (h : (make tf cs w allow).query.filter.Mentions (.column aliasName column)) :
    (make tf cs w allow).query.HasColumn aliasName column := by
  have hanchor : ∀ column, column = entityColumn ∨ column = tf.timeColumn →
      (make tf cs w allow).query.HasColumn (make tf cs w allow).anchorAlias column :=
    hasColumn_anchor hcs
  obtain ⟨p, hp, h⟩ := mentions_all.mp h
  rcases List.mem_append.mp hp with hp | hp
  · rcases List.mem_cons.mp hp with rfl | hp
    · unfold datePredicate at h
      split at h
      · simp only [equal, mentions_compare, Expr.column.injEq, reduceCtorEq, or_false] at h
        obtain ⟨rfl, rfl⟩ := h
        exact hanchor _ (.inr rfl)
      · cases h
    · obtain ⟨ids, -, rfl⟩ := List.mem_map.mp hp
      simp only [entity, mentions_oneOf, Expr.column.injEq] at h
      obtain ⟨rfl, rfl⟩ := h
      exact hanchor _ (.inl rfl)
  · obtain ⟨c, hc, rfl⟩ := List.mem_map.mp hp
    exact hasColumn_condition hcs hc h

theorem query_resolves : (make tf cs w allow).query.Resolves where
  distinct := by
    rw [sources_aliases]
    exact nodup_aliases (table_of_standard hcs)
  tables source h := by
    obtain ⟨t, ht, hname⟩ := exists_table hcs h
    exact List.mem_map.mpr ⟨t, ht, hname.symm⟩
  columns := by
    rintro _ _ (⟨⟨⟩⟩ | h | ⟨j, hj, h⟩)
    · exact hasColumn_anchor hcs _ (.inl rfl)
    · exact hasColumn_filter hcs h
    · exact (hasColumn_join hcs hj h).2
  joins _ hj _ _ h := (hasColumn_join hcs hj h).1

end

def pastShifts (tf : Timeframe) : List Shift :=
  (List.range' 1 (tf.offsetLabels.length - 1)).flatMap fun k => [⟨k, .raw⟩, ⟨k, .derived⟩]

theorem length_pastShifts (tf : Timeframe) : (pastShifts tf).length = 10 := by
  cases tf <;> decide

theorem mem_pastShifts {s : Shift} (hpos : 0 < s.offset) (hlt : s.offset < tf.offsetLabels.length) :
    s ∈ pastShifts tf := by
  refine List.mem_flatMap.mpr ⟨s.offset, List.mem_range'_1.mpr ⟨hpos, by omega⟩, ?_⟩
  obtain ⟨offset, _ | _⟩ := s <;> simp

theorem length_joins_le (hcs : ∀ c ∈ cs, ∀ col ∈ c.columns, col.Labelled tf) :
    (make tf cs w allow).joins.length ≤ 10 := by
  rw [← length_pastShifts tf, ← List.length_map (f := DatedShift.shift)]
  refine (nodup_shifts.subperm fun s hs => ?_).length_le
  obtain ⟨d, hd, rfl⟩ := List.mem_map.mp hs
  have href := (shift_of_mem_joins hd).1
  refine mem_pastShifts (offset_pos_of_mem_referenced href) ?_
  obtain ⟨col, hcol, hshift⟩ := mem_referenced.mp href
  obtain ⟨c, hc, hcol⟩ := List.mem_flatMap.mp hcol
  unfold ColumnRef.shift? at hshift
  split at hshift
  · next offset kind ht =>
    split at hshift
    · rw [← Option.some.inj hshift]
      exact hcs c hc col hcol offset kind ht
    · cases hshift
  · cases hshift

theorem length_fundamentals_le (hcs : ∀ c ∈ cs, ∀ col ∈ c.columns, col.Standard tf) :
    (make tf cs w allow).fundamentals.length ≤ 3 := by
  have hthree : Standard.fundamentalTables.eraseDups.length = 3 := by decide
  rw [← hthree]
  refine ((nodup_referencedTables cs).subperm fun name hname => ?_).length_le
  exact List.mem_eraseDups.mpr (fundamental_of_mem hcs hname)

/-- For all prompts that compile with the standard catalogs, for every window and every allowlist,
the statement of the plan resolves, it mentions no alias of a dropped table, and it joins at most
fourteen tables. -/
theorem compiled_query_resolves (policy : OperatorPolicy) (tf : Timeframe) (ps : List Prompt)
    (cs : List Condition) (w : Window) (allow : Option (List String))
    (h : (Condition.compileAll Standard.catalogs policy tf ps).outcome = .ok cs) :
    (make tf cs w allow).query.Resolves ∧
      (∀ d ∈ (make tf cs w allow).dropped, ∀ column,
        ¬ (make tf cs w allow).query.Mentions
          (.column ((make tf cs w allow).shiftAlias d) column)) ∧
      (make tf cs w allow).query.joins.length ≤ 14 := by
  have hcompiled := (Condition.ensures_compileAll Standard.catalogs policy tf ps).ok cs h
  have hcs : ∀ c ∈ cs, ∀ col ∈ c.columns, col.Standard tf :=
    fun c hc col hcol => (hcompiled c hc col hcol).1
  have hresolves : (make tf cs w allow).query.Resolves := query_resolves hcs
  refine ⟨hresolves, fun d hd column hmentions => ?_, ?_⟩
  · obtain ⟨table, _, hsource, -⟩ := hresolves.columns _ _ hmentions
    exact shiftAlias_not_mem hcs hd table hsource
  · have hjoins : (make tf cs w allow).joins.length ≤ 10 :=
      length_joins_le fun c hc col hcol => (hcompiled c hc col hcol).2
    have htables : (make tf cs w allow).fundamentals.length ≤ 3 := length_fundamentals_le hcs
    have hlength : (make tf cs w allow).query.joins.length =
        (make tf cs w allow).joins.length + (make tf cs w allow).fundamentals.length + 1 := by
      simp [query]
    omega

def reachingBack : List Prompt :=
  [⟨"today", "closing price", ">", "4 days ago", "ma5"⟩,
    ⟨"yesterday", "k", "less than", "OTHER", "roe"⟩,
    ⟨"other", "revenue yoy", ">=", "custom value", "10"⟩]

def reachingBackConditions : List Condition :=
  [⟨⟨.daily, .shifted 0 .raw, "c"⟩, .greater, .column ⟨.daily, .shifted 4 .derived, "ma5"⟩⟩,
    ⟨⟨.daily, .shifted 1 .derived, "k"⟩, .less, .column ⟨.daily, .table "financial_metric", "roe"⟩⟩,
    ⟨⟨.daily, .table "recent_fundamental", "revenue_recent_m1_yoy"⟩, .atLeast, .literal "10"⟩]

theorem referenced_reachingBack :
    referenced reachingBackConditions = [⟨1, .derived⟩, ⟨4, .derived⟩] := by
  have hsame : ∀ s, s ∈ [(⟨4, .derived⟩ : Shift), ⟨1, .derived⟩] ↔
      s ∈ [(⟨1, .derived⟩ : Shift), ⟨4, .derived⟩] := fun s => by simp [or_comm]
  exact (arrange_congr Shift.le Shift.le_trans Shift.le_total Shift.le_antisymm hsame).trans
    (arrange_of_pairwise Shift.le (by decide))

theorem referencedTables_reachingBack :
    referencedTables reachingBackConditions = ["financial_metric", "recent_fundamental"] :=
  arrange_of_pairwise _ (by decide)

/-- The offset that is out of reach is dropped, and the rest of the statement resolves. -/
theorem reachingBack_resolves :
    ∃ cs, (Condition.compileAll Standard.catalogs .strict .daily reachingBack).outcome = .ok cs ∧
      (make .daily cs ⟨["2024-01-03", "2024-01-02"]⟩ (some [])).dropped = [⟨4, .derived⟩] ∧
      (make .daily cs ⟨["2024-01-03", "2024-01-02"]⟩ (some [])).query.Resolves ∧
      (make .daily cs ⟨["2024-01-03", "2024-01-02"]⟩ (some [])).query.joins.length = 4 := by
  refine ⟨reachingBackConditions, rfl, ?_, ?_, ?_⟩
  · rw [make, referenced_reachingBack]
    rfl
  · exact (compiled_query_resolves .strict .daily reachingBack _ _ (some []) rfl).1
  · rw [make, referenced_reachingBack, referencedTables_reachingBack]
    rfl

end Plan

end StockScreen

import StockScreen.Proofs.Planning.Partners

/-! # The meaning of a plan

A plan selects the stocks that its conditions speak about: those with a row at
the anchor date for which every condition is true. A condition refers to rows
by the dates of the window, and a row or a date that is missing makes it not
true.
-/

namespace StockScreen

def ColumnRef.home (c : ColumnRef) : Table :=
  match c.target with
  | .shifted _ kind => .timeframe c.timeframe kind
  | .table name => .fundamental name

namespace Database

/-- The row of a stock that a column refers to: the one at the date of its offset, or the only one
in a table without a time. -/
def source? (db : Database) (w : Window) (stock : String) (c : ColumnRef) : Option Row :=
  match c.target with
  | .shifted offset kind => (w.dateAt? offset).bind (db.rowAt? c.timeframe kind stock)
  | .table name => db.rowOf? name stock

def columnValue (db : Database) (w : Window) (stock : String) (c : ColumnRef) :
    Cell × Option Affinity :=
  (((db.source? w stock c).bind fun row => row.lookup c.column).getD .null,
    c.home.affinity? c.column)

def operandValue (db : Database) (w : Window) (stock : String) :
    Operand → Cell × Option Affinity
  | .column c => db.columnValue w stock c
  | .literal text => (.text text, none)

def Satisfies (db : Database) (w : Window) (stock : String) (c : Condition) : Prop :=
  Query.compareValues c.operator (db.columnValue w stock c.left)
    (db.operandValue w stock c.right) = some true

/-- A stock is there at the anchor date, is allowed, and satisfies all conditions. -/
structure Qualifies (db : Database) (tf : Timeframe) (cs : List Condition) (w : Window)
    (allow : Option (List String)) (stock : String) : Prop where
  present : ∃ date, w.anchor? = some date ∧ (db.rowAt? tf .raw stock date).isSome
  allowed : ∀ ids, allow = some ids → stock ∈ ids
  satisfied : ∀ c ∈ cs, db.Satisfies w stock c

/-- The tables that the plans of a timeframe join have been created, and their rows have keys. -/
structure KeyedFor (db : Database) (tf : Timeframe) : Prop where
  timeframe : ∀ kind, db.KeyedAt (.timeframe tf kind)
  fundamental : ∀ name ∈ Standard.fundamentalTables, db.KeyedAt (.fundamental name)

variable {db : Database} {w : Window} {stock : String} {c : Condition} {col : ColumnRef}

theorem compareValues_null {op : Comparison} {x y : Cell × Option Affinity}
    (h : x.1 = .null ∨ y.1 = .null) : Query.compareValues op x y = none := by
  obtain ⟨a, x⟩ := x
  obtain ⟨b, y⟩ := y
  have hleft : ∀ c, Cell.null.order? c = none := fun c => by cases c <;> rfl
  have hright : ∀ c : Cell, c.order? .null = none := fun c => by cases c <;> rfl
  have hnull : Cell.null.spelled = .null := rfl
  cases hn : Query.comparesNumbers x y <;> rcases h with rfl | rfl <;>
    simp [Query.compareValues, hn, hnull, hleft, hright]

theorem Satisfies.source_isSome (h : db.Satisfies w stock c) (hcol : col ∈ c.columns) :
    (db.source? w stock col).isSome := by
  by_contra hnone
  have hnull : (db.columnValue w stock col).1 = .null := by
    rw [columnValue, Option.not_isSome_iff_eq_none.mp hnone]
    rfl
  have hside : (db.columnValue w stock c.left).1 = .null ∨
      (db.operandValue w stock c.right).1 = .null := by
    rcases List.mem_cons.mp hcol with rfl | hcol
    · exact .inl hnull
    · cases hr : c.right with
      | literal text => rw [hr] at hcol; cases hcol
      | column right =>
        rw [hr] at hcol
        rw [List.mem_singleton.mp hcol] at hnull
        exact .inr hnull
  rw [Satisfies, compareValues_null hside] at h
  cases h

end Database

open Query

namespace Plan

variable {db : Database} {tf : Timeframe} {cs : List Condition} {w : Window}
  {allow : Option (List String)} {p : Plan} {row : Row} {stock time : String} {j : Join}

def scope (db : Database) (p : Plan) (row : Row) : Scope :=
  (p.anchor row :: p.query.joins.map fun j =>
    (db.opened j).bound ((db.opened j).partner? (p.anchor row))).reverse

theorem mem_query_joins : j ∈ p.query.joins ↔
    j = p.anchorJoin ∨ (∃ d ∈ p.joins, j = p.shiftJoin d) ∨
      ∃ name ∈ p.fundamentals, j = p.tableJoin name := by
  simp [query, eq_comm]

theorem anchorJoin_mem (p : Plan) : p.anchorJoin ∈ p.query.joins := mem_query_joins.mpr (.inl rfl)

theorem shiftJoin_mem {d : DatedShift} (hd : d ∈ p.joins) : p.shiftJoin d ∈ p.query.joins :=
  mem_query_joins.mpr (.inr (.inl ⟨d, hd, rfl⟩))

theorem tableJoin_mem {name : String} (hname : name ∈ p.fundamentals) :
    p.tableJoin name ∈ p.query.joins :=
  mem_query_joins.mpr (.inr (.inr ⟨name, hname, rfl⟩))

theorem rowAt?_of_mem {kind : TableKind} {rows : List Row}
    (hrows : db.rows? (tf.table kind) = some rows) (hk : (Table.timeframe tf kind).Keyed rows)
    (hrow : row ∈ rows) (hat : row.isAt tf stock time) :
    db.rowAt? tf kind stock time = some row := by
  have hm : row ∈ rows.filter fun row => row.isAt tf stock time := List.mem_filter.mpr ⟨hrow, hat⟩
  rw [hk.filter_isAt, Option.mem_toList] at hm
  rw [Database.rowAt?, hrows]
  exact hm

/-- The tables of a plan are there, and its aliases are distinct. -/
structure Answerable (db : Database) (p : Plan) : Prop where
  keyed : db.KeyedFor p.timeframe
  fundamental : ∀ name ∈ p.fundamentals, name ∈ Standard.fundamentalTables
  aliases : (p.anchorAlias :: p.query.joins.map Join.aliasName).Nodup

theorem answerable_make (hdb : db.KeyedFor tf)
    (hcs : ∀ c ∈ cs, ∀ col ∈ c.columns, col.Standard tf) :
    (make tf cs w allow).Answerable db :=
  ⟨hdb, fun _ hname => fundamental_of_mem hcs hname, nodup_aliases (table_of_standard hcs)⟩

namespace Answerable

variable (hp : p.Answerable db)
include hp

theorem ne_anchor (hj : j ∈ p.query.joins) : j.aliasName ≠ p.anchorAlias := by
  intro h
  exact (List.nodup_cons.mp hp.aliases).1 (h ▸ List.mem_map_of_mem hj)

theorem openJoin_eq (hj : j ∈ p.query.joins) : db.openJoin j = .ok (db.opened j) := by
  rcases mem_query_joins.mp hj with rfl | ⟨d, hd, rfl⟩ | ⟨name, hname, rfl⟩
  · exact (hp.keyed.timeframe .derived).openJoin_eq (timeframe_mem_all _ _) rfl
  · exact (hp.keyed.timeframe d.shift.kind).openJoin_eq (timeframe_mem_all _ _) rfl
  · have hname' := hp.fundamental name hname
    exact (hp.keyed.fundamental name hname').openJoin_eq
      (Table.mem_all.mpr (.inr (.inl ⟨name, hname', rfl⟩))) rfl

variable (ha : p.Anchored row stock time [p.anchor row])
include ha

/-- Every join meets one row at the anchor, or none. -/
theorem meets_partner (hj : j ∈ p.query.joins) :
    (db.opened j).Meets (p.anchor row) ((db.opened j).partner? (p.anchor row)) := by
  have hne := hp.ne_anchor hj
  rcases mem_query_joins.mp hj with rfl | ⟨d, hd, rfl⟩ | ⟨name, hname, rfl⟩
  · have hm := meets_anchorJoin (hp.keyed.timeframe .derived) hne ha
    rwa [hm.partner?_eq]
  · have hm := meets_shiftJoin (hp.keyed.timeframe d.shift.kind) hne ha
    rwa [hm.partner?_eq]
  · have hname' := hp.fundamental name hname
    have hm := meets_tableJoin hname' (hp.keyed.fundamental name hname') hne ha
    rwa [hm.partner?_eq]

theorem extendAll_anchor :
    extendAll (p.query.joins.map db.opened) [p.anchor row] =
      if p.query.joins.all fun j =>
          (db.opened j).passes ((db.opened j).partner? (p.anchor row)) then
        [p.scope db row]
      else [] := by
  have hmeets : ∀ j ∈ p.query.joins.map db.opened,
      j.Meets (p.anchor row) (j.partner? (p.anchor row)) := by
    intro oj hoj
    obtain ⟨j, hj, rfl⟩ := List.mem_map.mp hoj
    exact hp.meets_partner ha hj
  have hne : ∀ j ∈ p.query.joins.map db.opened, j.join.aliasName ≠ (p.anchor row).aliasName := by
    intro oj hoj
    obtain ⟨j, hj, rfl⟩ := List.mem_map.mp hoj
    exact hp.ne_anchor hj
  rw [extendAll_of_meets hmeets hne ha.find, List.all_map, List.map_map, scope, List.reverse_cons]
  rfl

omit ha in
theorem nodup_scope (row : Row) : ((p.scope db row).map Binding.aliasName).Nodup := by
  rw [scope, List.map_reverse, List.nodup_reverse, List.map_cons, List.map_map]
  exact hp.aliases

omit ha in
theorem find_anchor (row : Row) :
    Scope.find (p.scope db row) p.anchorAlias = some (p.anchor row) :=
  Scope.find_of_mem (b := p.anchor row) (hp.nodup_scope row) (by simp [scope])

omit ha in
theorem value_join {t : Table} {row? : Option Row} (hj : j ∈ p.query.joins)
    (hm : (db.opened j).Meets (p.anchor row) row?) (ht : t ∈ Table.all) (hjt : j.table = t.name)
    (name : String) :
    (Expr.column j.aliasName name).value (p.scope db row) =
      ((row?.bind fun row => row.lookup name).getD .null, t.affinity? name) := by
  have hmem : (db.opened j).bound row? ∈ p.scope db row := by
    rw [scope, List.mem_reverse]
    refine List.mem_cons_of_mem _ (List.mem_map.mpr ⟨j, hj, ?_⟩)
    rw [hm.partner?_eq]
  have hf : Scope.find (p.scope db row) j.aliasName = some ((db.opened j).bound row?) :=
    Scope.find_of_mem (hp.nodup_scope row) hmem
  have htable : (db.opened j).table = t := Database.opened_table ht hjt
  rw [value_of_find hf, OpenJoin.bound, OpenJoin.bind, htable]
  cases row? <;> rfl

end Answerable

theorem exists_date {s : Shift} (hs : s ∈ referenced cs)
    (hdropped : s ∉ (make tf cs w allow).dropped) : ∃ date, w.dateAt? s.offset = some date := by
  cases hd : w.dateAt? s.offset with
  | some date => exact ⟨date, rfl⟩
  | none => exact absurd (List.mem_filter.mpr ⟨hs, by rw [hd]; rfl⟩) hdropped

variable (hp : (make tf cs w allow).Answerable db)
  (hcs : ∀ c ∈ cs, ∀ col ∈ c.columns, col.Standard tf)
  (ha : (make tf cs w allow).Anchored row stock time [(make tf cs w allow).anchor row])
  (hrow : db.rowAt? tf .raw stock time = some row) (hanchor : w.anchor? = some time)
include hp hcs ha hrow hanchor

theorem value_expr {col : ColumnRef} {c : Condition} (hc : c ∈ cs) (hcol : col ∈ c.columns)
    (hdate : (make tf cs w allow).isDropped col = false) :
    (expr col).value ((make tf cs w allow).scope db row) = db.columnValue w stock col := by
  have hmem : col ∈ cs.flatMap Condition.columns := List.mem_flatMap.mpr ⟨c, hc, hcol⟩
  obtain ⟨tf', target, column⟩ := col
  obtain rfl : tf' = tf := (hcs c hc _ hcol).1
  have hfirst : w.dateAt? 0 = some time := hanchor
  match target with
  | .shifted 0 .raw =>
    refine (value_of_find (hp.find_anchor row) column).trans ?_
    simp only [Database.columnValue, Database.source?, hfirst, Option.bind_some, hrow]
    rfl
  | .shifted 0 .derived =>
    have hj := anchorJoin_mem (make tf' cs w allow)
    have hm := meets_anchorJoin (hp.keyed.timeframe .derived) (hp.ne_anchor hj) ha
    refine (hp.value_join hj hm (timeframe_mem_all ..) rfl column).trans ?_
    simp only [Database.columnValue, Database.source?, hfirst, Option.bind_some]
    rfl
  | .shifted (offset + 1) kind =>
    have hs : ⟨offset + 1, kind⟩ ∈ referenced cs := mem_referenced.mpr ⟨_, hmem, rfl⟩
    obtain ⟨date, hd⟩ := exists_date hs (by simpa [isDropped] using hdate)
    have hd' : ⟨⟨offset + 1, kind⟩, date⟩ ∈ (make tf' cs w allow).joins := mem_joins hs hd
    have hj := shiftJoin_mem hd'
    have hm := meets_shiftJoin (hp.keyed.timeframe kind) (hp.ne_anchor hj) ha
    refine (hp.value_join hj hm (timeframe_mem_all ..) rfl column).trans ?_
    simp only [Database.columnValue, Database.source?, hd, Option.bind_some]
    rfl
  | .table name =>
    have hname : name ∈ referencedTables cs := mem_referencedTables.mpr ⟨_, hmem, rfl⟩
    have hname' := hp.fundamental name hname
    have hj : tableJoin (make tf' cs w allow) name ∈ (make tf' cs w allow).query.joins :=
      tableJoin_mem hname
    have hm := meets_tableJoin hname' (hp.keyed.fundamental name hname') (hp.ne_anchor hj) ha
    exact hp.value_join hj hm (Table.mem_all.mpr (.inr (.inl ⟨name, hname', rfl⟩))) rfl column

omit hp hcs ha hrow hanchor in
theorem source?_of_isDropped {col : ColumnRef} (h : (make tf cs w allow).isDropped col) :
    db.source? w stock col = none := by
  unfold isDropped at h
  split at h
  · next offset kind ht =>
    have hm : ⟨offset, kind⟩ ∈ (make tf cs w allow).dropped := by simpa using h
    have hd := (List.mem_filter.mp hm).2
    simp only [Database.source?, ht, Option.isNone_iff_eq_none.mp hd, Option.bind_none]
  · cases h

/-- The predicate of a condition holds when the condition is true of the anchor's stock. -/
theorem conditionPredicate_iff {c : Condition} (hc : c ∈ cs) :
    ((make tf cs w allow).conditionPredicate c).holds?
        ((make tf cs w allow).scope db row) = some true ↔
      db.Satisfies w stock c := by
  cases hd : c.columns.any (make tf cs w allow).isDropped with
  | true =>
    rw [conditionPredicate, if_pos hd]
    obtain ⟨col, hcol, hdropped⟩ := List.any_eq_true.mp hd
    constructor
    · intro h
      cases h
    · intro h
      have hs := h.source_isSome hcol
      rw [source?_of_isDropped hdropped] at hs
      cases hs
  | false =>
    have hnd : ∀ col ∈ c.columns, (make tf cs w allow).isDropped col = false := by
      simpa using hd
    have hv : ∀ col ∈ c.columns,
        (expr col).value ((make tf cs w allow).scope db row) = db.columnValue w stock col :=
      fun col hcol => value_expr hp hcs ha hrow hanchor hc hcol (hnd col hcol)
    have hright : (operandExpr c.right).value ((make tf cs w allow).scope db row) =
        db.operandValue w stock c.right := by
      cases hr : c.right with
      | literal text => rfl
      | column col => exact hv col (by simp [Condition.columns, hr, Operand.column?])
    rw [conditionPredicate, if_neg (by simp [hd]), Predicate.holds?, hv c.left List.mem_cons_self,
      hright]
    rfl

omit hp ha hrow hanchor in
theorem rowAt?_isSome_of_satisfied (hsat : ∀ c ∈ cs, db.Satisfies w stock c) {d : DatedShift}
    (hd : d ∈ (make tf cs w allow).joins) :
    (db.rowAt? tf d.shift.kind stock d.date).isSome := by
  obtain ⟨hs, hdate⟩ := shift_of_mem_joins hd
  obtain ⟨col, hcol, hshift⟩ := mem_referenced.mp hs
  obtain ⟨c, hc, hcol⟩ := List.mem_flatMap.mp hcol
  have hsource := (hsat c hc).source_isSome hcol
  have htf : col.timeframe = tf := (hcs c hc col hcol).1
  unfold ColumnRef.shift? at hshift
  split at hshift
  · next offset kind ht =>
    split at hshift
    · have hshift' : ⟨offset, kind⟩ = d.shift := Option.some.inj hshift
      simp only [← hshift'] at hdate ⊢
      simpa only [Database.source?, ht, hdate, Option.bind_some, htf] using hsource
    · cases hshift
  · cases hshift

omit hrow hanchor in
/-- Conditions that are true leave no inner join without its row. -/
theorem passes_of_satisfied (hsat : ∀ c ∈ cs, db.Satisfies w stock c)
    (hj : j ∈ (make tf cs w allow).query.joins) :
    (db.opened j).passes ((db.opened j).partner? ((make tf cs w allow).anchor row)) := by
  rcases mem_query_joins.mp hj with rfl | ⟨d, hd, rfl⟩ | ⟨name, hname, rfl⟩
  · rfl
  · have hm := meets_shiftJoin (hp.keyed.timeframe d.shift.kind) (hp.ne_anchor hj) ha
    rw [hm.partner?_eq, OpenJoin.passes, Bool.or_eq_true]
    exact .inr (rowAt?_isSome_of_satisfied hcs hsat hd)
  · rfl

end Plan

end StockScreen

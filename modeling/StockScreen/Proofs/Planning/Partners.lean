import StockScreen.Proofs.Planning.Aliases
import StockScreen.Proofs.Query.Star

/-! # Rows that the joins of a plan meet

Each join of a plan meets one row of its table, or none: the row of the
anchor's stock, and with a time the one at the date of the join.
-/

namespace StockScreen

namespace Row

def isOf (row : Row) (stock : String) : Bool := row.text? entityColumn == some stock

def isAt (row : Row) (tf : Timeframe) (stock time : String) : Bool :=
  row.isOf stock && row.text? tf.timeColumn == some time

end Row

namespace Database

def rowAt? (db : Database) (tf : Timeframe) (kind : TableKind) (stock time : String) :
    Option Row :=
  ((db.rows? (tf.table kind)).getD []).find? fun row => row.isAt tf stock time

def rowOf? (db : Database) (table stock : String) : Option Row :=
  ((db.rows? table).getD []).find? fun row => row.isOf stock

def opened (db : Database) (j : Query.Join) : Query.OpenJoin where
  join := j
  table := (Table.find? j.table).getD .stock
  rows := (db.rows? j.table).getD []

end Database

open Query

namespace Table

variable {t : Table} {rows : List Row} {cell : Option Cell} {c : String}

theorem KeyCell.text_iff (h : t.KeyCell cell) (s : String) :
    cell.getD .null = .text s ↔ cell.bind Cell.text? = some s := by
  rcases h with ⟨s', rfl⟩ | ⟨-, rfl⟩ <;> simp [Cell.text?]

theorem affinity?_of_mem_key (h : c ∈ t.key) : t.affinity? c = some .text := by
  have hf : (t.key.map (Column.mk · .text)).find? (fun col => col.name == c) = some ⟨c, .text⟩ := by
    have hk : t.key.find? (fun k => k == c) = some c := by
      cases hk : t.key.find? (fun k => k == c) with
      | none => exact absurd (List.find?_eq_none.mp hk c h) (by simp)
      | some k =>
        have hkc : k = c := by simpa using List.find?_some hk
        rw [hkc]
    rw [List.find?_map, Function.comp_def, hk]
    rfl
  rw [affinity?, columns, List.find?_append, hf]
  rfl

theorem sameKey_of_isAt {tf : Timeframe} {kind : TableKind} {stock time : String} {a b : Row}
    (ha : a.isAt tf stock time) (hb : b.isAt tf stock time) :
    (Table.timeframe tf kind).sameKey a b = true := by
  have hkey : ∀ row : Row, row.isAt tf stock time →
      (Table.timeframe tf kind).key? row = some [stock, time] := by
    intro row hr
    obtain ⟨hs, ht⟩ :
        row.text? entityColumn = some stock ∧ row.text? tf.timeColumn = some time := by
      simpa [Row.isAt, Row.isOf] using hr
    simp [key?, key, hs, ht]
  simp [sameKey, hkey a ha, hkey b hb]

theorem sameKey_of_isOf {name stock : String} {a b : Row} (ha : a.isOf stock) (hb : b.isOf stock) :
    (Table.fundamental name).sameKey a b = true := by
  have hkey : ∀ row : Row, row.isOf stock → (Table.fundamental name).key? row = some [stock] := by
    intro row hr
    have hs : row.text? entityColumn = some stock := by simpa [Row.isOf] using hr
    simp [key?, key, hs]
  simp [sameKey, hkey a ha, hkey b hb]

theorem Keyed.filter_isAt {tf : Timeframe} {kind : TableKind}
    (h : (Table.timeframe tf kind).Keyed rows) (stock time : String) :
    rows.filter (fun row => row.isAt tf stock time) =
      (rows.find? fun row => row.isAt tf stock time).toList := by
  refine filter_eq_toList_find? (h.once.imp ?_)
  intro a b hab ha hb
  rw [sameKey_of_isAt ha hb] at hab
  cases hab

theorem Keyed.filter_isOf {name : String} (h : (Table.fundamental name).Keyed rows)
    (stock : String) :
    rows.filter (fun row => row.isOf stock) =
      (rows.find? fun row => row.isOf stock).toList := by
  refine filter_eq_toList_find? (h.once.imp ?_)
  intro a b hab ha hb
  rw [sameKey_of_isOf ha hb] at hab
  cases hab

end Table

namespace Query

variable {scope : Scope} {l r : Expr} {c : Cell} {s : String} {x y : Option Affinity}

theorem compareValues_text_left (h : comparesNumbers x y = false) :
    compareValues .equal (.text s, x) (c, y) = some true ↔ c = .text s := by
  cases c with
  | text t => simp [compareValues, h, Cell.order?, Comparison.admits, eq_comm (a := s)]
  | _ => simp [compareValues, h, Cell.order?, Comparison.admits]

theorem compareValues_text_right (h : comparesNumbers x y = false) :
    compareValues .equal (c, x) (.text s, y) = some true ↔ c = .text s := by
  cases c <;> simp [compareValues, h, Cell.order?, Comparison.admits]

end Query

namespace Database

variable {db : Database} {t : Table} {j : Join}

theorem opened_table (ht : t ∈ Table.all) (hj : j.table = t.name) : (db.opened j).table = t := by
  rw [opened, hj, Table.find?_name ht]
  rfl

theorem KeyedAt.opened_rows (h : db.KeyedAt t) (hj : j.table = t.name) :
    t.Keyed (db.opened j).rows := by
  obtain ⟨rows, hr, hk⟩ := h
  rw [opened, hj, hr]
  exact hk

theorem KeyedAt.openJoin_eq (h : db.KeyedAt t) (ht : t ∈ Table.all) (hj : j.table = t.name) :
    db.openJoin j = .ok (db.opened j) := by
  obtain ⟨rows, hr, -⟩ := h
  rw [openJoin, opened, tableRows, hj, Table.find?_name ht, hr]
  rfl

end Database

namespace Plan

variable {db : Database} {p : Plan} {row : Row} {stock time : String} {scope : Scope} {b : Binding}

def anchor (p : Plan) (row : Row) : Binding :=
  ⟨p.anchorAlias, .timeframe p.timeframe .raw, row⟩

/-- The row of the anchor belongs to a stock and a time, and is in scope. -/
structure Anchored (p : Plan) (row : Row) (stock time : String) (scope : Scope) : Prop where
  stock : row.lookup entityColumn = some (.text stock)
  time : row.lookup p.timeframe.timeColumn = some (.text time)
  find : Scope.find scope p.anchorAlias = some (p.anchor row)

theorem Anchored.cons (h : p.Anchored row stock time scope) (hb : b.aliasName ≠ p.anchorAlias) :
    p.Anchored row stock time (b :: scope) :=
  ⟨h.stock, h.time, (Scope.find_cons_of_ne hb).trans h.find⟩

theorem value_of_find {aliasName : String} (hb : Scope.find scope aliasName = some b)
    (name : String) :
    (Expr.column aliasName name).value scope =
      ((b.row.lookup name).getD .null, b.table.affinity? name) := by
  rw [Expr.value_column, hb]

theorem Anchored.value_entity (h : p.Anchored row stock time scope) :
    (entity p.anchorAlias).value scope = (.text stock, some .text) := by
  rw [entity, value_of_find h.find, anchor, h.stock,
    Table.affinity?_of_mem_key (by simp [Table.key])]
  rfl

theorem Anchored.value_time (h : p.Anchored row stock time scope) :
    (Expr.column p.anchorAlias p.timeframe.timeColumn).value scope = (.text time, some .text) := by
  rw [value_of_find h.find, anchor, h.time, Table.affinity?_of_mem_key (by simp [Table.key])]
  rfl

theorem value_key {aliasName c : String} (hb : Scope.find scope aliasName = some b)
    (hc : c ∈ b.table.key) :
    (Expr.column aliasName c).value scope = ((b.row.lookup c).getD .null, some .text) := by
  rw [value_of_find hb, Table.affinity?_of_mem_key hc]

theorem Anchored.sameEntity {aliasName : String} (h : p.Anchored row stock time scope)
    (hb : Scope.find scope aliasName = some b) (hc : entityColumn ∈ b.table.key)
    (hcell : b.table.KeyCell (b.row.lookup entityColumn)) :
    (equal (entity p.anchorAlias) (entity aliasName)).holds? scope = some true ↔
      b.row.isOf stock := by
  have hv : (entity aliasName).value scope = _ := value_key hb hc
  rw [equal, Predicate.holds?, h.value_entity, hv, compareValues_text_left rfl, hcell.text_iff,
    Row.isOf, beq_iff_eq]
  rfl

theorem Anchored.sameTime {aliasName : String} (h : p.Anchored row stock time scope)
    (hb : Scope.find scope aliasName = some b) (hc : p.timeframe.timeColumn ∈ b.table.key)
    (hcell : b.table.KeyCell (b.row.lookup p.timeframe.timeColumn)) :
    (equal (.column p.anchorAlias p.timeframe.timeColumn)
        (.column aliasName p.timeframe.timeColumn)).holds? scope = some true ↔
      b.row.text? p.timeframe.timeColumn = some time := by
  rw [equal, Predicate.holds?, h.value_time, value_key hb hc, compareValues_text_left rfl,
    hcell.text_iff]
  rfl

theorem dated_holds {aliasName c date : String} (hb : Scope.find scope aliasName = some b)
    (hc : c ∈ b.table.key) (hcell : b.table.KeyCell (b.row.lookup c)) :
    (equal (.column aliasName c) (.literal date)).holds? scope = some true ↔
      b.row.text? c = some date := by
  rw [equal, Predicate.holds?, value_key hb hc, Expr.value, compareValues_text_right rfl,
    hcell.text_iff]
  rfl

theorem holds_pair {l r : Predicate} :
    (Predicate.all [l, r]).holds scope = true ↔
      l.holds? scope = some true ∧ r.holds? scope = some true := by
  rw [Predicate.holds_iff, Predicate.holds?, allHold?_eq_some_true]
  simp

/-- A join matches the rows that its condition asks for. -/
theorem matching_of_iff {j : Join} {t : Table} {q : Row → Bool} (hk : db.KeyedAt t)
    (ht : t ∈ Table.all) (hj : j.table = t.name) (hne : j.aliasName ≠ p.anchorAlias)
    (hq : ∀ scope r, p.Anchored row stock time scope →
      Scope.find scope j.aliasName = some ⟨j.aliasName, t, r⟩ →
      (∀ c ∈ t.key, t.KeyCell (r.lookup c)) → (j.condition.holds scope = true ↔ q r = true))
    (ha : p.Anchored row stock time scope) :
    (db.opened j).matching scope = (db.opened j).rows.filter q := by
  apply List.filter_congr
  intro r hm
  have hbind : (db.opened j).bind r = ⟨j.aliasName, t, r⟩ := by
    rw [OpenJoin.bind, Database.opened_table ht hj]
    rfl
  rw [hbind, Bool.eq_iff_iff]
  exact hq _ r (ha.cons hne) (Scope.find_cons_self ..) ((hk.opened_rows hj).cells r hm)

theorem timeframe_mem_all (tf : Timeframe) (kind : TableKind) :
    Table.timeframe tf kind ∈ Table.all :=
  Table.mem_all.mpr (.inl ⟨tf, kind, rfl⟩)

theorem isAt_iff {r : Row} {tf : Timeframe} : r.isAt tf stock time = true ↔
    r.isOf stock = true ∧ r.text? tf.timeColumn = some time := by
  simp [Row.isAt]

theorem meets_anchorJoin (hk : db.KeyedAt (.timeframe p.timeframe .derived))
    (hne : p.derivedAlias ≠ p.anchorAlias) (ha : p.Anchored row stock time [p.anchor row]) :
    (db.opened p.anchorJoin).Meets (p.anchor row)
      (db.rowAt? p.timeframe .derived stock time) := by
  intro scope hscope
  have ht := timeframe_mem_all p.timeframe .derived
  refine Eq.trans ?_ ((hk.opened_rows (j := p.anchorJoin) rfl).filter_isAt stock time)
  refine matching_of_iff hk ht rfl hne ?_ ⟨ha.stock, ha.time, hscope⟩
  intro scope r ha hb hcells
  have he : entityColumn ∈ (Table.timeframe p.timeframe .derived).key := by simp [Table.key]
  have htime : p.timeframe.timeColumn ∈ (Table.timeframe p.timeframe .derived).key := by
    simp [Table.key]
  rw [isAt_iff]
  exact holds_pair.trans (and_congr (ha.sameEntity hb he (hcells _ he))
    (ha.sameTime hb htime (hcells _ htime)))

theorem meets_shiftJoin {d : DatedShift} (hk : db.KeyedAt (.timeframe p.timeframe d.shift.kind))
    (hne : p.shiftAlias d.shift ≠ p.anchorAlias)
    (ha : p.Anchored row stock time [p.anchor row]) :
    (db.opened (p.shiftJoin d)).Meets (p.anchor row)
      (db.rowAt? p.timeframe d.shift.kind stock d.date) := by
  intro scope hscope
  have ht := timeframe_mem_all p.timeframe d.shift.kind
  refine Eq.trans ?_ ((hk.opened_rows (j := p.shiftJoin d) rfl).filter_isAt stock d.date)
  refine matching_of_iff hk ht rfl hne ?_ ⟨ha.stock, ha.time, hscope⟩
  intro scope r ha hb hcells
  have he : entityColumn ∈ (Table.timeframe p.timeframe d.shift.kind).key := by simp [Table.key]
  have htime : p.timeframe.timeColumn ∈ (Table.timeframe p.timeframe d.shift.kind).key := by
    simp [Table.key]
  rw [isAt_iff]
  exact holds_pair.trans (and_congr (ha.sameEntity hb he (hcells _ he))
    (dated_holds hb htime (hcells _ htime)))

theorem meets_tableJoin {name : String} (hname : name ∈ Standard.fundamentalTables)
    (hk : db.KeyedAt (.fundamental name)) (hne : name ≠ p.anchorAlias)
    (ha : p.Anchored row stock time [p.anchor row]) :
    (db.opened (p.tableJoin name)).Meets (p.anchor row) (db.rowOf? name stock) := by
  intro scope hscope
  have ht : Table.fundamental name ∈ Table.all := Table.mem_all.mpr (.inr (.inl ⟨name, hname, rfl⟩))
  refine Eq.trans ?_ ((hk.opened_rows (j := p.tableJoin name) rfl).filter_isOf stock)
  refine matching_of_iff hk ht rfl hne ?_ ⟨ha.stock, ha.time, hscope⟩
  intro scope r ha hb hcells
  have he : entityColumn ∈ (Table.fundamental name).key := by simp [Table.key]
  rw [Predicate.holds_iff]
  exact ha.sameEntity hb he (hcells _ he)

end Plan

end StockScreen

import StockScreen.Proofs.Planning.Selection

/-! # The allowlist of a plan

The allowlist stands in the filter of a plan's statement. The statement selects
the stocks that it selects without the list, those left out that are not in it.
-/

namespace StockScreen

open Query

namespace Database

variable {db : Database} {j : Join}

/-- A table of the schema that has been created. -/
def HasTable (db : Database) (name : String) : Prop :=
  (∃ t ∈ Table.all, t.name = name) ∧ (db.rows? name).isSome

theorem KeyedAt.hasTable {t : Table} (h : db.KeyedAt t) (ht : t ∈ Table.all) :
    db.HasTable t.name := by
  obtain ⟨rows, hr, -⟩ := h
  exact ⟨⟨t, ht, rfl⟩, by rw [hr]; rfl⟩

theorem tableRows_eq {t : Table} (ht : t ∈ Table.all) {rows : List Row}
    (hr : db.rows? t.name = some rows) : db.tableRows t.name = .ok (t, rows) := by
  rw [tableRows, Table.find?_name ht, hr]

theorem HasTable.openJoin_eq (h : db.HasTable j.table) : db.openJoin j = .ok (db.opened j) := by
  obtain ⟨⟨t, ht, hname⟩, hrows⟩ := h
  obtain ⟨rows, hr⟩ := Option.isSome_iff_exists.mp hrows
  rw [← hname] at hr
  rw [openJoin, opened, ← hname, tableRows_eq ht hr, Table.find?_name ht, hr]
  rfl

end Database

namespace Plan

variable {db : Database} {tf : Timeframe} {cs : List Condition} {w : Window}
  {allow : Option (List String)} {rows : List Row} {scope : Scope}

theorem ne_anchor_of_hasTable (h : ∀ j ∈ (make tf cs w allow).query.joins, db.HasTable j.table)
    {j : Join} (hj : j ∈ (make tf cs w allow).query.joins) :
    j.aliasName ≠ (make tf cs w allow).anchorAlias := by
  intro halias
  rcases mem_query_joins.mp hj with rfl | ⟨d, hd, rfl⟩ | ⟨name, -, rfl⟩
  · cases (Timeframe.aliasAt_injective halias).2
  · have hpos := offset_pos_of_mem_referenced (shift_of_mem_joins hd).1
    exact absurd (Timeframe.aliasAt_injective halias).1 (Nat.ne_of_gt hpos)
  · obtain ⟨⟨t, ht, hname⟩, -⟩ := h _ hj
    exact tf.aliasAt_ne_name 0 .raw ht (halias.symm.trans hname.symm)

def scopes (db : Database) (p : Plan) (rows : List Row) : List Scope :=
  rows.flatMap fun row => extendAll (p.query.joins.map db.opened) [p.anchor row]

def stockIn (p : Plan) (scope : Scope) : String :=
  ((p.query.column.value scope).1.text?).getD ""

/-- The stocks that a plan's statement selects from the rows of the anchor's table. -/
def found (db : Database) (p : Plan) (rows : List Row) : List String :=
  ((p.scopes db rows).filter fun scope => p.query.filter.holds scope).map p.stockIn

theorem Anchored.stockIn_eq {p : Plan} {row : Row} {stock time : String}
    (ha : p.Anchored row stock time scope) :
    (p.query.column.value scope).1 = .text stock ∧ p.stockIn scope = stock := by
  have hv : (p.query.column.value scope).1 = .text stock := congrArg Prod.fst ha.value_entity
  exact ⟨hv, by rw [stockIn, hv]; rfl⟩

section

variable (hk : (Table.timeframe tf .raw).Keyed rows)
  (h : ∀ j ∈ (make tf cs w allow).query.joins, db.HasTable j.table)
include hk h

theorem anchored_of_mem_scopes (hscope : scope ∈ (make tf cs w allow).scopes db rows) :
    ∃ row stock time, (make tf cs w allow).Anchored row stock time scope := by
  obtain ⟨row, hrow, hext⟩ := List.mem_flatMap.mp hscope
  obtain ⟨time, ha, -⟩ := exists_anchored (p := make tf cs w allow) hk hrow
  have hne : ∀ oj ∈ (make tf cs w allow).query.joins.map db.opened,
      oj.join.aliasName ≠ (make tf cs w allow).anchorAlias := by
    intro oj hoj
    obtain ⟨j, hj, rfl⟩ := List.mem_map.mp hoj
    exact ne_anchor_of_hasTable h hj
  exact ⟨row, stockOf row, time, ha.stock, ha.time, (find_of_mem_extendAll hne hext).trans ha.find⟩

/-- A plan whose tables are there has an answer, which consists of texts. -/
theorem nestedLoops_eq_found (hrows : db.rows? (tf.table .raw) = some rows) :
    db.nestedLoops (make tf cs w allow).query =
      .ok (((make tf cs w allow).found db rows).map .text) := by
  have ht : db.tableRows (make tf cs w allow).query.table = .ok (.timeframe tf .raw, rows) :=
    Database.tableRows_eq (timeframe_mem_all tf .raw) hrows
  have hj : (make tf cs w allow).query.joins.mapM db.openJoin =
      .ok ((make tf cs w allow).query.joins.map db.opened) :=
    mapM_eq_ok fun j hj => (h j hj).openJoin_eq
  have hloops : db.nestedLoops (make tf cs w allow).query =
      .ok ((((make tf cs w allow).scopes db rows).filter fun scope =>
        (make tf cs w allow).query.filter.holds scope).map fun scope =>
          ((make tf cs w allow).query.column.value scope).1) := by
    rw [Database.nestedLoops, ht, hj]
    rfl
  rw [hloops, found, List.map_map]
  refine congrArg Except.ok (List.map_congr_left fun scope hscope => ?_)
  obtain ⟨row, stock, time, ha⟩ := anchored_of_mem_scopes hk h (List.mem_filter.mp hscope).1
  rw [ha.stockIn_eq.1, Function.comp_apply, ha.stockIn_eq.2]

end

theorem filter_allowed_iff {row : Row} {stock time : String} {allowed : List String}
    (ha : (make tf cs w none).Anchored row stock time scope) :
    (make tf cs w (some allowed)).query.filter.holds scope = true ↔
      stock ∈ allowed ∧ (make tf cs w none).query.filter.holds scope = true := by
  have hone := ha.oneOf_iff allowed
  rw [filter_iff, filter_iff]
  constructor
  · rintro ⟨hdate, hallow, hcs⟩
    exact ⟨hone.mp (hallow allowed rfl), hdate, nofun, hcs⟩
  · rintro ⟨hmem, hdate, -, hcs⟩
    refine ⟨hdate, ?_, hcs⟩
    rintro _ ⟨⟩
    exact hone.mpr hmem

theorem found_allowed (hk : (Table.timeframe tf .raw).Keyed rows)
    (h : ∀ j ∈ (make tf cs w none).query.joins, db.HasTable j.table) (allowed : List String) :
    (make tf cs w (some allowed)).found db rows =
      ((make tf cs w none).found db rows).filter allowed.contains := by
  have hscopes : (make tf cs w (some allowed)).scopes db rows =
      (make tf cs w none).scopes db rows := rfl
  have hstock : (make tf cs w (some allowed)).stockIn = (make tf cs w none).stockIn := rfl
  rw [found, found, hscopes, hstock, List.filter_map, List.filter_filter]
  refine congrArg _ (List.filter_congr fun scope hscope => ?_)
  obtain ⟨row, stock, time, ha⟩ := anchored_of_mem_scopes hk h hscope
  rw [Bool.eq_iff_iff, filter_allowed_iff ha, Bool.and_eq_true, Function.comp_apply,
    ha.stockIn_eq.2, List.contains_iff_mem]

end Plan

end StockScreen

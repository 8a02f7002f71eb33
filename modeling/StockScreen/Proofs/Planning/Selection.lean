import StockScreen.Proofs.Planning.Meaning

/-! # What a plan selects

The statement of a plan selects every stock that qualifies, and each of them
once. The rows of the anchor table are accepted one by one, and those of one
time belong to different stocks.
-/

namespace StockScreen

open Query

namespace Plan

variable {db : Database} {tf : Timeframe} {cs : List Condition} {w : Window}
  {allow : Option (List String)} {p : Plan} {rows : List Row} {row : Row} {stock time : String}
  {scope : Scope}

theorem Anchored.datePredicate_iff (h : p.Anchored row stock time scope) :
    p.datePredicate.holds? scope = some true ↔ p.anchorDate = some time := by
  cases hd : p.anchorDate with
  | none => simp [datePredicate, hd, Predicate.holds?]
  | some date =>
    have hp : p.datePredicate =
        equal (.column p.anchorAlias p.timeframe.timeColumn) (.literal date) := by
      simp only [datePredicate, hd]
    rw [hp, equal, Predicate.holds?, h.value_time, Expr.value, compareValues_text_left rfl]
    simp

theorem Anchored.oneOf_iff (h : p.Anchored row stock time scope) (ids : List String) :
    (Predicate.oneOf (entity p.anchorAlias) ids).holds? scope = some true ↔ stock ∈ ids := by
  have hc : ∀ s, compareValues .equal (.text stock, some .text) (.text s, none) =
      some (decide (stock = s)) := by
    intro s
    by_cases hs : stock = s
    · simpa [hs] using (compareValues_text_left rfl).mpr rfl
    · simp [compareValues, comparesNumbers, Affinity.isNumeric, Cell.order?, Comparison.admits, hs]
  have hf : (Predicate.oneOf (entity p.anchorAlias) ids).holds? scope =
      some (decide (stock ∈ ids)) := by
    rw [Predicate.holds?, h.value_entity]
    induction ids with
    | nil => rfl
    | cons s ids ih =>
      rw [List.foldr_cons, ih, hc]
      by_cases hs : stock = s <;> by_cases hm : stock ∈ ids <;> simp [either, hs, hm]
  rw [hf]
  simp

def accepts (db : Database) (p : Plan) (row : Row) : Bool :=
  (p.query.joins.all fun j => (db.opened j).passes ((db.opened j).partner? (p.anchor row))) &&
    p.query.filter.holds (p.scope db row)

theorem filter_iff : p.query.filter.holds scope = true ↔
    p.datePredicate.holds? scope = some true ∧
      (∀ ids, p.allowlist = some ids →
        (Predicate.oneOf (entity p.anchorAlias) ids).holds? scope = some true) ∧
      ∀ c ∈ p.conditions, (p.conditionPredicate c).holds? scope = some true := by
  rw [Predicate.holds_iff, query, Predicate.holds?, allHold?_eq_some_true, List.cons_append,
    List.forall_mem_cons, List.forall_mem_append, List.forall_mem_map]
  refine and_congr_right fun _ => and_congr_left fun _ => ?_
  cases hl : p.allowlist <;> simp [allowPredicates, hl]

def stockOf (row : Row) : String := (row.text? entityColumn).getD ""

theorem exists_anchored (hk : (Table.timeframe p.timeframe .raw).Keyed rows)
    (hrow : row ∈ rows) :
    ∃ time, p.Anchored row (stockOf row) time [p.anchor row] ∧
      row.isAt p.timeframe (stockOf row) time = true := by
  have htext : ∀ c ∈ (Table.timeframe p.timeframe .raw).key,
      ∃ s, row.lookup c = some (.text s) := by
    intro c hc
    rcases hk.cells row hrow c hc with h | ⟨hreq, -⟩
    · exact h
    · cases hreq
  obtain ⟨stock, hs⟩ := htext entityColumn (by simp [Table.key])
  obtain ⟨time, ht⟩ := htext p.timeframe.timeColumn (by simp [Table.key])
  have hstock : stockOf row = stock := by rw [stockOf, Row.text?, hs]; rfl
  refine ⟨time, ⟨hstock ▸ hs, ht, Scope.find_cons_self ..⟩, ?_⟩
  rw [isAt_iff, Row.isOf, beq_iff_eq, hstock, Row.text?, Row.text?, hs, ht]
  exact ⟨rfl, rfl⟩

theorem select_row (hp : p.Answerable db) (ha : p.Anchored row stock time [p.anchor row]) :
    ((extendAll (p.query.joins.map db.opened) [p.anchor row]).filter fun scope =>
        p.query.filter.holds scope).map (fun scope => (p.query.column.value scope).1) =
      if p.accepts db row then [.text stock] else [] := by
  have hs : p.Anchored row stock time (p.scope db row) := ⟨ha.stock, ha.time, hp.find_anchor row⟩
  have hv : (p.query.column.value (p.scope db row)).1 = .text stock :=
    congrArg Prod.fst hs.value_entity
  rw [hp.extendAll_anchor ha, accepts]
  split
  · next hpass =>
    rw [hpass, Bool.true_and]
    cases hf : p.query.filter.holds (p.scope db row) <;> simp [hf, hv]
  · next hpass => simp [hpass]

def selected (db : Database) (p : Plan) (rows : List Row) : List String :=
  (rows.filter (p.accepts db)).map stockOf

theorem nestedLoops_eq (hp : p.Answerable db)
    (hrows : db.rows? (p.timeframe.table .raw) = some rows)
    (hk : (Table.timeframe p.timeframe .raw).Keyed rows) :
    db.nestedLoops p.query = .ok ((p.selected db rows).map .text) := by
  have ht : db.tableRows p.query.table = .ok (.timeframe p.timeframe .raw, rows) := by
    have hf := Table.find?_name (timeframe_mem_all p.timeframe .raw)
    have hq : p.query.table = (Table.timeframe p.timeframe .raw).name := rfl
    have hr : db.rows? (Table.timeframe p.timeframe .raw).name = some rows := hrows
    rw [Database.tableRows, hq, hf, hr]
  have hj : p.query.joins.mapM db.openJoin = .ok (p.query.joins.map db.opened) :=
    mapM_eq_ok fun j hj => hp.openJoin_eq hj
  have hloops : db.nestedLoops p.query =
      .ok (((rows.flatMap fun row => extendAll (p.query.joins.map db.opened) [p.anchor row]).filter
        fun scope => p.query.filter.holds scope).map fun scope =>
          (p.query.column.value scope).1) := by
    rw [Database.nestedLoops, ht, hj]
    rfl
  rw [hloops, List.filter_flatMap, List.map_flatMap, selected, List.map_map,
    ← flatMap_ite_singleton]
  refine congrArg Except.ok (List.flatMap_congr fun row hrow => ?_)
  obtain ⟨time, ha, -⟩ := exists_anchored hk hrow
  exact select_row hp ha

section

variable (hp : (make tf cs w allow).Answerable db)
  (hcs : ∀ c ∈ cs, ∀ col ∈ c.columns, col.Standard tf)
include hp hcs

/-- The row of a stock and a time is accepted when the time is that of the anchor, and the stock is
allowed and satisfies the conditions. -/
theorem accepts_iff
    (ha : (make tf cs w allow).Anchored row stock time [(make tf cs w allow).anchor row])
    (hrow : db.rowAt? tf .raw stock time = some row) :
    (make tf cs w allow).accepts db row = true ↔
      w.anchor? = some time ∧ (∀ ids, allow = some ids → stock ∈ ids) ∧
        ∀ c ∈ cs, db.Satisfies w stock c := by
  have hs : (make tf cs w allow).Anchored row stock time ((make tf cs w allow).scope db row) :=
    ⟨ha.stock, ha.time, hp.find_anchor row⟩
  have hfilter :
      (make tf cs w allow).query.filter.holds ((make tf cs w allow).scope db row) = true ↔
        w.anchor? = some time ∧ (∀ ids, allow = some ids → stock ∈ ids) ∧
          ∀ c ∈ cs, db.Satisfies w stock c := by
    rw [filter_iff, hs.datePredicate_iff]
    refine and_congr_right fun hanchor => and_congr ?_ ?_
    · exact forall₂_congr fun ids _ => hs.oneOf_iff ids
    · exact forall₂_congr fun c hc => conditionPredicate_iff hp hcs ha hrow hanchor hc
  rw [accepts, Bool.and_eq_true, hfilter]
  refine and_iff_right_of_imp fun h => List.all_eq_true.mpr fun j hj => ?_
  exact passes_of_satisfied hp hcs ha h.2.2 hj

variable (hrows : db.rows? (tf.table .raw) = some rows) (hk : (Table.timeframe tf .raw).Keyed rows)
include hrows hk

theorem qualifies_of_accepts (hrow : row ∈ rows)
    (haccepts : (make tf cs w allow).accepts db row) :
    db.Qualifies tf cs w allow (stockOf row) ∧
      ∃ time, w.anchor? = some time ∧ row.isAt tf (stockOf row) time = true := by
  obtain ⟨time, ha, hat⟩ := exists_anchored (p := make tf cs w allow) hk hrow
  have hone := rowAt?_of_mem hrows hk hrow hat
  obtain ⟨hanchor, hallowed, hsat⟩ := (accepts_iff hp hcs ha hone).mp haccepts
  exact ⟨⟨⟨time, hanchor, by rw [hone]; rfl⟩, hallowed, hsat⟩, time, hanchor, hat⟩

theorem exists_accepts (h : db.Qualifies tf cs w allow stock) :
    ∃ row ∈ rows, (make tf cs w allow).accepts db row ∧ stockOf row = stock := by
  obtain ⟨date, hanchor, hsome⟩ := h.present
  obtain ⟨row, hone⟩ := Option.isSome_iff_exists.mp hsome
  have hfind : rows.find? (fun row => row.isAt tf stock date) = some row := by
    rw [Database.rowAt?, hrows] at hone
    exact hone
  have hrow : row ∈ rows := List.mem_of_find?_eq_some hfind
  have hdated : row.isAt tf stock date = true := by simpa using List.find?_some hfind
  obtain ⟨time, ha, hat⟩ := exists_anchored (p := make tf cs w allow) hk hrow
  obtain ⟨hstock, hdate⟩ := isAt_iff.mp hdated
  obtain ⟨hstock', hdate'⟩ := isAt_iff.mp hat
  obtain rfl : stockOf row = stock := by
    rw [Row.isOf, beq_iff_eq] at hstock hstock'
    exact Option.some.inj (hstock'.symm.trans hstock)
  obtain rfl : time = date := Option.some.inj (hdate'.symm.trans hdate)
  exact ⟨row, hrow, (accepts_iff hp hcs ha hone).mpr ⟨hanchor, h.allowed, h.satisfied⟩, rfl⟩

/-- The rows that a plan accepts are all at its anchor date, so their stocks differ. -/
theorem nodup_selected : ((make tf cs w allow).selected db rows).Nodup := by
  rw [selected, List.Nodup, List.pairwise_map]
  refine (hk.once.sublist List.filter_sublist).imp_of_mem ?_
  intro a b ha hb hab hstock
  obtain ⟨hmem, haccepts⟩ := List.mem_filter.mp ha
  obtain ⟨hmem', haccepts'⟩ := List.mem_filter.mp hb
  obtain ⟨-, time, hanchor, hat⟩ := qualifies_of_accepts hp hcs hrows hk hmem haccepts
  obtain ⟨-, time', hanchor', hat'⟩ := qualifies_of_accepts hp hcs hrows hk hmem' haccepts'
  obtain rfl : time = time' := Option.some.inj (hanchor.symm.trans hanchor')
  rw [Table.sameKey_of_isAt (hstock ▸ hat) hat'] at hab
  cases hab

theorem mem_selected :
    stock ∈ (make tf cs w allow).selected db rows ↔ db.Qualifies tf cs w allow stock := by
  constructor
  · intro h
    obtain ⟨row, hrow, rfl⟩ := List.mem_map.mp h
    obtain ⟨hmem, haccepts⟩ := List.mem_filter.mp hrow
    exact (qualifies_of_accepts hp hcs hrows hk hmem haccepts).1
  · intro h
    obtain ⟨row, hmem, haccepts, hstock⟩ := exists_accepts hp hcs hrows hk h
    exact List.mem_map.mpr ⟨row, List.mem_filter.mpr ⟨hmem, haccepts⟩, hstock⟩

end

/-- A plan's statement selects each stock that qualifies, once, and nothing else: by nested loops,
and when it is evaluated, unless it is refused for its depth. -/
theorem query_selects (db : Database) (tf : Timeframe) (cs : List Condition) (w : Window)
    (allow : Option (List String)) (hdb : db.KeyedFor tf)
    (hcs : ∀ c ∈ cs, ∀ col ∈ c.columns, col.Standard tf) :
    ∃ ids : List String,
      (db.nestedLoops (make tf cs w allow).query = .ok (ids.map .text) ∧
        ((make tf cs w allow).query.height ≤ Database.greatestHeight →
          db.select (make tf cs w allow).query = .ok (ids.map .text))) ∧
      ids.Nodup ∧ ∀ stock, stock ∈ ids ↔ db.Qualifies tf cs w allow stock := by
  obtain ⟨rows, hrows, hk⟩ := hdb.timeframe .raw
  have hp : (make tf cs w allow).Answerable db := answerable_make hdb hcs
  have hloops := nestedLoops_eq hp hrows hk
  refine ⟨(make tf cs w allow).selected db rows, ⟨hloops, fun hheight => ?_⟩,
    nodup_selected hp hcs hrows hk, fun stock => mem_selected hp hcs hrows hk⟩
  rw [Database.select_eq_nestedLoops db _ hheight fun j hj => hp.ne_anchor hj, hloops]

def volumes : List Row :=
  [[("stock_id", .text "A"), ("t", .text "2024-01-02"), ("v", .integer 5)],
    [("stock_id", .text "A"), ("t", .text "2024-01-03"), ("v", .integer 7)],
    [("stock_id", .text "B"), ("t", .text "2024-01-02"), ("v", .integer 5)],
    [("stock_id", .text "B"), ("t", .text "2024-01-03"), ("v", .integer 4)]]

def trading : Database where
  contents := (Timeframe.daily.table .raw, volumes) :: (Timeframe.daily.table .derived, []) ::
    Standard.fundamentalTables.map fun name => (name, [])

def rising : Condition :=
  ⟨⟨.daily, .shifted 0 .raw, "v"⟩, .greater, .column ⟨.daily, .shifted 1 .raw, "v"⟩⟩

theorem keyedFor_trading : trading.KeyedFor .daily where
  timeframe kind := by
    cases kind with
    | derived => exact ⟨[], rfl, Table.keyed_nil _⟩
    | raw =>
      refine ⟨volumes, rfl, ⟨fun row hrow c hc => .inl ?_, by decide +kernel⟩⟩
      simp only [volumes, Table.key, List.mem_cons, List.not_mem_nil, or_false] at hrow hc
      rcases hrow with rfl | rfl | rfl | rfl <;> rcases hc with rfl | rfl <;> exact ⟨_, rfl⟩
  fundamental name hname := by
    have hempty : ∀ name ∈ Standard.fundamentalTables,
        (trading.rows? name).map List.length = some 0 := by
      decide +kernel
    obtain ⟨rows, hrows, hlength⟩ := Option.map_eq_some_iff.mp (hempty name hname)
    rw [List.length_eq_zero_iff.mp hlength] at hrows
    exact ⟨[], hrows, Table.keyed_nil _⟩

theorem standard_rising : ∀ col ∈ rising.columns, col.Standard .daily := by
  intro col hcol
  simp only [rising, Condition.columns, Operand.column?, Option.toList, List.mem_cons,
    List.not_mem_nil, or_false] at hcol
  have hv : ⟨"volume", "v", .timeframe .raw⟩ ∈
      (Standard.catalogs.timeframe .daily).entries ++ Standard.catalogs.fundamentals.entries := by
    decide +kernel
  rcases hcol with rfl | rfl <;> exact ⟨rfl, _, hv, rfl, rfl⟩

/-- Of the two stocks only one qualifies. -/
theorem rising_qualifies :
    trading.Qualifies .daily [rising] ⟨["2024-01-03", "2024-01-02"]⟩ none "A" ∧
      ¬ trading.Qualifies .daily [rising] ⟨["2024-01-03", "2024-01-02"]⟩ none "B" := by
  have hstandard : ∀ c ∈ [rising], ∀ col ∈ c.columns, col.Standard .daily := by
    rintro c hc
    rw [List.mem_singleton.mp hc]
    exact standard_rising
  obtain ⟨ids, ⟨hloops, -⟩, -, hids⟩ := query_selects trading .daily [rising]
    ⟨["2024-01-03", "2024-01-02"]⟩ none keyedFor_trading hstandard
  have hrun : ((trading.nestedLoops (make .daily [rising]
      ⟨["2024-01-03", "2024-01-02"]⟩ none).query).toOption.map fun cells =>
        cells.map Cell.text?) = some [some "A"] := by
    decide +kernel
  have hone : ids = ["A"] := by
    rw [hloops] at hrun
    simpa [Except.toOption, Cell.text?] using hrun
  rw [← hids, ← hids, hone]
  decide

end Plan

end StockScreen

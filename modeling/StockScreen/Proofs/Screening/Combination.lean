import Mathlib.Data.List.Sort
import StockScreen.Proofs.Database.Texts
import StockScreen.Proofs.Planning.Allowlist
import StockScreen.Proofs.Planning.Identifiers
import StockScreen.Proofs.Screening.Room

/-! # The stocks that a rule finds

Each active timeframe of a rule finds the stocks that its plan selects. The
rule finds those of all its active timeframes, or of any of them, in order, and
an allowlist leaves out the others whichever way they are combined.
-/

namespace StockScreen

open Query

namespace Database

/-- The tables of the timeframes and those that catalogs name are there, the rows of prices have
keys, and the columns that catalogs name are identifiers. -/
structure Serves (db : Database) (catalogs : Catalogs) : Prop where
  prices : ∀ tf, db.KeyedAt (.timeframe tf .raw)
  timeframe : ∀ (tf : Timeframe) kind, db.HasTable (tf.table kind)
  listed : ∀ tf, ∀ entry ∈ (catalogs.timeframe tf).entries ++ catalogs.fundamentals.entries,
    ∀ name, entry.home = .fundamental name → db.HasTable name
  identifiers : ∀ tf,
    ∀ entry ∈ (catalogs.timeframe tf).entries ++ catalogs.fundamentals.entries,
      Query.Plain entry.column

variable {db : Database} {catalogs : Catalogs} {mode : CombineMode} {selects : List Select}

theorem Serves.hasTable (h : db.Serves catalogs) {tf : Timeframe} {cs : List Condition}
    (hcs : ∀ c ∈ cs, ∀ col ∈ c.columns, col.Listed catalogs tf) {w : Window}
    {allow : Option (List String)} :
    ∀ j ∈ (Plan.make tf cs w allow).query.joins, db.HasTable j.table := by
  intro j hj
  rcases Plan.mem_query_joins.mp hj with rfl | ⟨d, -, rfl⟩ | ⟨name, hname, rfl⟩
  · exact h.timeframe tf .derived
  · exact h.timeframe tf d.shift.kind
  · obtain ⟨col, hcol, htable⟩ := mem_referencedTables.mp hname
    obtain ⟨c, hc, hcol⟩ := List.mem_flatMap.mp hcol
    obtain ⟨-, entry, hentry, -, hhome⟩ := hcs c hc col hcol
    unfold ColumnRef.table? at htable
    split at htable
    · next ht =>
      cases htable
      rw [ht] at hhome
      exact h.listed tf entry hentry _ hhome
    · cases htable

theorem Serves.plain_query (h : db.Serves catalogs) {tf : Timeframe} {cs : List Condition}
    (hcs : ∀ c ∈ cs, ∀ col ∈ c.columns, col.Listed catalogs tf) (w : Window)
    (allow : Option (List String)) : (Plan.make tf cs w allow).query.Plain := by
  refine Plan.plain_query (fun j hj => ?_) fun c hc col hcol => ?_
  · obtain ⟨⟨t, ht, hname⟩, -⟩ := h.hasTable hcs j hj
    exact hname ▸ Table.plain_name ht
  · obtain ⟨-, entry, hentry, hcolumn, -⟩ := hcs c hc col hcol
    exact hcolumn ▸ h.identifiers tf entry hentry

theorem Serves.clear_query (h : db.Serves catalogs) {tf : Timeframe} {cs : List Condition}
    (hcs : ∀ c ∈ cs, ∀ col ∈ c.columns, col.Listed catalogs tf) (w : Window)
    (allow : Option (List String)) : (Plan.make tf cs w allow).query.Clear := by
  refine Plan.nodup_aliases fun name hname => ?_
  have hjoin := Plan.tableJoin_mem (p := .make tf cs w allow) hname
  exact (h.hasTable hcs _ hjoin).1

theorem Keyed.serves (h : db.Keyed) : db.Serves Standard.catalogs where
  prices tf := h _ (Plan.timeframe_mem_all tf .raw)
  timeframe tf kind :=
    (h _ (Plan.timeframe_mem_all tf kind)).hasTable (Plan.timeframe_mem_all tf kind)
  listed tf entry hentry name hhome := by
    have hstandard : (⟨tf, .table name, entry.column⟩ : ColumnRef).Standard tf :=
      ⟨rfl, entry, hentry, rfl, hhome⟩
    have hname : name ∈ Standard.fundamentalTables := Plan.fundamental_of_standard hstandard rfl
    have hmem : .fundamental name ∈ Table.all := Table.mem_all.mpr (.inr (.inl ⟨name, hname, rfl⟩))
    exact (h _ hmem).hasTable hmem
  identifiers tf := by
    cases tf <;> decide +kernel

end Database

namespace Screener

variable {σ : Type} (sc : Screener σ) (db : Database) (rows : Request → List Row) (rule : Rule)
  (anchor : String) (allow : Option (List String))

/-- A stock is found for a timeframe when the plan of its conditions selects the stock. -/
def Finds (tf : Timeframe) (stock : String) : Prop :=
  ∃ cs cells, sc.conditions rule tf = .ok cs ∧
    db.nestedLoops (Plan.make tf cs (sc.windowFrom rows anchor tf) allow).query = .ok cells ∧
    .text stock ∈ cells

def planOf (tf : Timeframe) (conds : List Condition) : Plan :=
  .make tf conds (sc.windowFrom rows anchor tf) allow

def stocksOf (tf : Timeframe) (conds : List Condition) : List String :=
  (sc.planOf rows anchor allow tf conds).found db ((db.rows? (tf.table .raw)).getD [])

variable {sc db rows rule anchor allow} {cs : List Compiled} {tf : Timeframe} {stock : String}
  {conds : List Condition}

section

variable (hdb : db.Serves sc.catalogs) (hconds : sc.conditions rule tf = .ok conds)
include hdb hconds

omit hdb in
theorem listed_of_conditions : ∀ c ∈ conds, ∀ col ∈ c.columns, col.Listed sc.catalogs tf :=
  fun c hc col hcol => ((Condition.ensures_compileAll sc.catalogs sc.settings.policy tf
    (rule.prompts tf)).ok conds hconds c hc col hcol).1

theorem hasTable_planOf :
    ∀ j ∈ (sc.planOf rows anchor allow tf conds).query.joins, db.HasTable j.table :=
  hdb.hasTable (listed_of_conditions hconds)

variable (rows anchor allow) in
theorem nestedLoops_planOf :
    db.nestedLoops (sc.planOf rows anchor allow tf conds).query =
      .ok ((sc.stocksOf db rows anchor allow tf conds).map .text) := by
  obtain ⟨rows', hrows, hk⟩ := hdb.prices tf
  have hrows' : db.rows? (tf.table .raw) = some rows' := hrows
  rw [stocksOf, hrows']
  exact Plan.nestedLoops_eq_found hk (hasTable_planOf hdb hconds) hrows

theorem finds_iff :
    sc.Finds db rows rule anchor allow tf stock ↔
      stock ∈ sc.stocksOf db rows anchor allow tf conds := by
  have hloops := nestedLoops_planOf rows anchor allow hdb hconds
  constructor
  · rintro ⟨conds', cells, hconds', hcells, hmem⟩
    cases hconds.symm.trans hconds'
    cases hloops.symm.trans hcells
    simpa using hmem
  · intro hmem
    exact ⟨conds, _, hconds, hloops, List.mem_map_of_mem hmem⟩

theorem finds_allowed_iff {allowed : List String} :
    sc.Finds db rows rule anchor (some allowed) tf stock ↔
      sc.Finds db rows rule anchor none tf stock ∧ stock ∈ allowed := by
  obtain ⟨rows', hrows, hk⟩ := hdb.prices tf
  have hrows' : db.rows? (tf.table .raw) = some rows' := hrows
  have hfound : sc.stocksOf db rows anchor (some allowed) tf conds =
      (sc.stocksOf db rows anchor none tf conds).filter allowed.contains := by
    rw [stocksOf, stocksOf, hrows']
    exact Plan.found_allowed hk (hasTable_planOf hdb hconds) allowed
  rw [finds_iff hdb hconds, finds_iff hdb hconds, hfound]
  simp

end

theorem active_ne_nil (h : rule.isEmpty = false) : rule.active ≠ [] := by
  intro hnil
  have hall : rule.isEmpty = true := by
    simpa [Rule.active, Rule.isEmpty, List.filter_eq_nil_iff] using hnil
  simp [h] at hall

theorem text?_headed {cs : List Compiled} {f : Compiled → Plan} (hne : cs ≠ [])
    (cells : List Cell) :
    (headed (cs.map fun c => (f c).query) cells).filterMap (Row.text? · entityColumn) =
      cells.filterMap Cell.text? := by
  cases cs with
  | nil => exact absurd rfl hne
  | cons c cs =>
    rw [headed, List.filterMap_map]
    refine List.filterMap_congr fun cell _ => ?_
    simp [Row.text?, Plan.query]

theorem mem_filterMap_text? {cells : List Cell} (h : ∀ cell ∈ cells, ∃ text, cell = .text text) :
    stock ∈ cells.filterMap Cell.text? ↔ .text stock ∈ cells := by
  rw [List.mem_filterMap]
  constructor
  · rintro ⟨cell, hcell, ht⟩
    obtain ⟨text, rfl⟩ := h cell hcell
    cases ht
    exact hcell
  · intro hmem
    exact ⟨_, hmem, rfl⟩

/-- The texts that answer a request for the stocks of compiled conditions. -/
theorem mem_answer (hne : cs ≠ []) (hdb : db.Serves sc.catalogs) (hrows : db.Explains rows)
    (hconds : ∀ c ∈ cs, sc.conditions rule c.timeframe = .ok c.conditions) :
    stock ∈ (rows (sc.request (sc.plansFrom rows anchor allow cs))).filterMap
        (Row.text? · entityColumn) ↔
      sc.mode.Decides cs fun c =>
        stock ∈ sc.stocksOf db rows anchor allow c.timeframe c.conditions := by
  have hloops : ∀ c ∈ cs, db.nestedLoops
      (sc.planOf rows anchor allow c.timeframe c.conditions).query =
        .ok ((sc.stocksOf db rows anchor allow c.timeframe c.conditions).map .text) :=
    fun c hc => nestedLoops_planOf rows anchor allow hdb (hconds c hc)
  obtain ⟨cells, hcells, hfrom, htexts⟩ :=
    Database.exists_combined sc.mode hne hloops
  have hselects : ∀ s ∈
      cs.map fun c => (sc.planOf rows anchor allow c.timeframe c.conditions).query,
      s.Clear ∧ s.Plain := by
    intro s hs
    obtain ⟨c, hc, rfl⟩ := List.mem_map.mp hs
    have hlisted := listed_of_conditions (hconds c hc)
    exact ⟨hdb.clear_query hlisted _ allow, hdb.plain_query hlisted _ allow⟩
  have hrequest : sc.request (sc.plansFrom rows anchor allow cs) = .matching sc.mode
      (cs.map fun c => (sc.planOf rows anchor allow c.timeframe c.conditions).query) := by
    rw [request, plansFrom, List.map_map]
    rfl
  have htext : ∀ cell ∈ cells, ∃ text, cell = .text text := by
    intro cell hcell
    obtain ⟨c, -, hcell⟩ := hfrom cell hcell
    obtain ⟨text, -, rfl⟩ := List.mem_map.mp hcell
    exact ⟨text, rfl⟩
  have hanswer := hrows sc.mode _ cells (by simpa using hne) hselects hcells
  rw [hrequest, (hanswer.filterMap _).mem_iff, text?_headed hne, mem_filterMap_text? htext, htexts]
  exact CombineMode.decides_congr fun c _ => by simp

variable (anchor allow) in
theorem exists_idsFrom (hdb : db.Serves sc.catalogs) (hrows : db.Explains rows)
    (hcs : (sc.compile rule).outcome = .ok cs) :
    ∃ ids, sc.idsFrom rows rule anchor allow = .ok ids ∧ ids.Pairwise (· < ·) ∧
      ∀ stock, stock ∈ ids ↔
        sc.mode.Decides rule.active (sc.Finds db rows rule anchor allow · stock) := by
  obtain ⟨hempty, hactive⟩ := (sc.ensures_compile rule).ok cs hcs
  have hne : cs ≠ [] := by
    rintro rfl
    exact active_ne_nil hempty hactive.timeframes.symm
  refine ⟨_, by rw [idsFrom, hcs]; rfl, pairwise_ascending _, fun stock => ?_⟩
  rw [mem_ascending, mem_answer hne hdb hrows hactive.conditions, ← hactive.timeframes,
    CombineMode.decides_map]
  exact CombineMode.decides_congr fun c hc => (finds_iff hdb (hactive.conditions c hc)).symm

variable (anchor) in
theorem exists_idsFrom_allowed (hdb : db.Serves sc.catalogs) (hrows : db.Explains rows)
    (hcs : (sc.compile rule).outcome = .ok cs) (allowed : List String) :
    ∃ free, sc.idsFrom rows rule anchor none = .ok free ∧
      sc.idsFrom rows rule anchor (some allowed) = .ok (free.filter allowed.contains) := by
  obtain ⟨free, hfree, hasc, hmem⟩ := exists_idsFrom anchor none hdb hrows hcs
  obtain ⟨ids, hids, hasc', hmem'⟩ :=
    exists_idsFrom anchor (some allowed) hdb hrows hcs
  obtain ⟨hempty, hactive⟩ := (sc.ensures_compile rule).ok cs hcs
  have hfinds : ∀ stock, ∀ tf ∈ rule.active,
      (sc.Finds db rows rule anchor (some allowed) tf stock ↔
        sc.Finds db rows rule anchor none tf stock ∧ stock ∈ allowed) := by
    intro stock tf htf
    rw [← hactive.timeframes] at htf
    obtain ⟨c, hc, rfl⟩ := List.mem_map.mp htf
    exact finds_allowed_iff hdb (hactive.conditions c hc)
  refine ⟨free, hfree, hids.trans (congrArg Except.ok ?_)⟩
  refine hasc'.eq_of_mem_iff (hasc.filter _) fun stock => ?_
  rw [hmem', CombineMode.decides_congr (hfinds stock),
    CombineMode.decides_and (active_ne_nil hempty), List.mem_filter, hmem, List.contains_iff_mem]

theorem ensures_ids {F : StoreFault → σ → Prop} (h : sc.store.Truthful rows F) (s : σ) :
    (sc.ids rule anchor allow).Ensures s
      (fun ids _ => sc.idsFrom rows rule anchor allow = .ok ids)
      fun e t => DataStore.Faulted F e t ∨ (sc.compile rule).outcome = .error e := by
  rw [ids, Session.ensures_withFresh]
  exact (ensures_idsWith h (coherent_empty anchor) rule allow s).mono
    (fun _ _ hids => hids.1) fun _ _ he => he.1

theorem outcome_ids (hanswers : ∀ r s, (sc.store.answer r s).1 = .ok (rows r)) {ids : List String}
    (hids : sc.idsFrom rows rule anchor allow = .ok ids) (s : σ) :
    (sc.ids rule anchor allow s).1.outcome = .ok ids := by
  have hstore : sc.store.Truthful rows fun _ _ => False := by
    refine ⟨fun r s xs hx => ?_, fun r s fault hf => ?_⟩
    · exact (Except.ok.inj ((hanswers r s).symm.trans hx)).symm
    · cases (hanswers r s).symm.trans hf
  have hens : (sc.ids rule anchor allow).Ensures s
      (fun ids _ => sc.idsFrom rows rule anchor allow = .ok ids) fun _ _ => False := by
    apply (ensures_ids hstore s).mono fun _ _ h => h
    rintro e t (⟨_, _, hf⟩ | hc)
    · exact hf
    · rw [idsFrom, hc] at hids
      cases hids
  obtain ⟨ids', hok, hids'⟩ := hens.exists_ok
  cases hids.symm.trans hids'
  exact hok

/-- With a store that answers the texts of statements as these say, a rule that compiles finds
stocks in strict order: those of the plans of all active timeframes, or of any of them. With an
allowlist it finds the same stocks as without, except for those not in the list. Only where a weekly
window is needed, and there is no room for its dates, the program ends without a result. -/
theorem ids_combined {σ : Type} (sc : Screener σ) (db : Database) (exec : String → List Row)
    (rule : Rule) (anchor : String) (allow : Option (List String)) (s : σ)
    (hanswers : ∀ r s, (sc.store.answer r s).1 = .ok (exec r.text)) (hexec : db.Evaluates exec)
    (hdb : db.Serves sc.catalogs) (hrule : ∃ cs, (sc.compile rule).outcome = .ok cs) :
    ((.weekly ∈ rule.active → sc.settings.weeklyCount ≤ greatestCount) →
      ∃ ids, sc.Returns rule anchor allow s ids ∧ ids.Pairwise (· < ·) ∧
        (∀ stock, stock ∈ ids ↔ sc.mode.Decides rule.active
          (sc.Finds db (fun r => exec r.text) rule anchor allow · stock)) ∧
        ∀ allowed, allow = some allowed →
          ∃ free, sc.Returns rule anchor none s free ∧ ids = free.filter allowed.contains) ∧
    (.weekly ∈ rule.active → greatestCount < sc.settings.weeklyCount →
      sc.ids? rule anchor allow s = none) := by
  obtain ⟨cs, hcs⟩ := hrule
  have hrows := hexec.explains
  constructor
  · intro hroom
    have hreturns : ∀ allow ids, sc.idsFrom (fun r => exec r.text) rule anchor allow = .ok ids →
        sc.Returns rule anchor allow s ids := by
      intro allow ids hids
      rw [Returns, ids?_of_room hroom]
      exact congrArg some (outcome_ids hanswers hids s)
    obtain ⟨ids, hids, hasc, hmem⟩ := exists_idsFrom anchor allow hdb hrows hcs
    refine ⟨ids, hreturns allow ids hids, hasc, hmem, ?_⟩
    rintro allowed rfl
    obtain ⟨free, hfree, hallowed⟩ := exists_idsFrom_allowed anchor hdb hrows hcs allowed
    cases hids.symm.trans hallowed
    exact ⟨free, hreturns none free hfree, rfl⟩
  · intro hweekly hroom
    exact ids?_of_no_room (fun r s => ⟨_, hanswers r s⟩) hroom hcs hweekly anchor allow s

/-- What the database itself finds, when it does not refuse the request. -/
theorem ids_of_database {sc : Screener Database} (hstore : sc.store = databaseStore)
    {db : Database} (hdb : db.Serves sc.catalogs) {ids : List String}
    (h : (sc.ids rule anchor allow db).1.outcome = .ok ids) :
    ids.Pairwise (· < ·) ∧ ∀ stock, stock ∈ ids ↔
      sc.mode.Decides rule.active (sc.Finds db db.meaning rule anchor allow · stock) := by
  let store : DataStore Unit := ⟨fun r s => (db.answer r, s)⟩
  have hfollows : DataStore.Follows (fun _ => db) store sc.store := by
    rw [hstore]
    exact fun _ _ => ⟨rfl, rfl⟩
  have htruthful : (sc.onStore store).store.Truthful db.meaning fun _ _ => True := by
    refine ⟨fun r s xs hx => ?_, fun _ _ _ _ => trivial⟩
    have hx' : db.answer r = .ok xs := hx
    simp only [Database.meaning, hx']
  have hsame := (idsWith_follows hfollows rule anchor allow ((), {})).1
  have hok : ((sc.onStore store).ids rule anchor allow ()).1.outcome = .ok ids :=
    (congrArg Noted.outcome hsame).trans h
  have hids := (ensures_ids htruthful ()).ok hok
  rw [idsFrom_onStore] at hids
  cases hcs : (sc.compile rule).outcome with
  | error e => rw [idsFrom, hcs] at hids; cases hids
  | ok cs =>
    obtain ⟨ids', hids', hasc, hmem⟩ :=
      exists_idsFrom anchor allow hdb db.explains_meaning hcs
    cases hids.symm.trans hids'
    exact ⟨hasc, hmem⟩

def dayVolumes : List Row :=
  [[("stock_id", .text "A"), ("t", .text "2024-01-03"), ("v", .integer 7)],
    [("stock_id", .text "B"), ("t", .text "2024-01-03"), ("v", .integer 9)]]

def weekVolumes : List Row :=
  [[("stock_id", .text "A"), ("t", .text "2024-01-02"), ("v", .integer 20)]]

/-- A stock with much volume on a day and in its week, and another one on the day only. -/
def market : Database :=
  .createTables ⟨[(Timeframe.daily.table .raw, dayVolumes),
    (Timeframe.weekly.table .raw, weekVolumes)]⟩

theorem keyed_volumes : (Table.timeframe .daily .raw).Keyed dayVolumes ∧
    (Table.timeframe .weekly .raw).Keyed weekVolumes := by
  refine ⟨⟨fun row hrow c hc => .inl ?_, by decide +kernel⟩,
    ⟨fun row hrow c hc => .inl ?_, by decide +kernel⟩⟩
  · simp only [dayVolumes, Table.key, List.mem_cons, List.not_mem_nil, or_false] at hrow hc
    rcases hrow with rfl | rfl <;> rcases hc with rfl | rfl <;> exact ⟨_, rfl⟩
  · simp only [weekVolumes, Table.key, List.mem_cons, List.not_mem_nil, or_false] at hrow hc
    obtain rfl := hrow
    rcases hc with rfl | rfl <;> exact ⟨_, rfl⟩

theorem keyed_market : market.Keyed := by
  intro t ht
  refine ⟨_, Database.rows?_createTables _ ht, ?_⟩
  rcases Table.mem_all.mp ht with ⟨tf, kind, rfl⟩ | ⟨name, hname, rfl⟩ | rfl
  · cases tf <;> cases kind
    case daily.raw => exact keyed_volumes.1
    case weekly.raw => exact keyed_volumes.2
    all_goals exact Table.keyed_nil _
  · have hnone : ∀ name ∈ Standard.fundamentalTables,
        Database.rows? ⟨[(Timeframe.daily.table .raw, dayVolumes),
          (Timeframe.weekly.table .raw, weekVolumes)]⟩ name = none := by
      decide
    rw [Table.name, hnone name hname]
    exact Table.keyed_nil _
  · exact Table.keyed_nil _

/-- Texts of statements get what the statements select from the market, and all others the week. -/
def marketTexts (text : String) : List Row :=
  match Compound.parse? text with
  | some c => (market.evaluate c).toOption.getD []
  | none => [[("t", .text "2024-01-02")]]

theorem evaluates_marketTexts : market.Evaluates marketTexts := by
  intro text c rows hparse _ hrows
  refine List.Perm.of_eq ?_
  rw [marketTexts, hparse]
  exact congrArg (·.toOption.getD []) hrows

def busy : Screener Unit where
  store := .fixed fun r => marketTexts r.text
  catalogs := Standard.catalogs
  settings := {}
  feed := ["2024-01-03"]

def busyRule : Rule where
  daily := [⟨"today", "volume", ">", "custom value", "5"⟩]
  weekly := [⟨"this week", "volume", ">", "custom value", "10"⟩]

def volumeAbove (tf : Timeframe) (number : String) : Condition :=
  ⟨⟨tf, .shifted 0 .raw, "v"⟩, .greater, .literal number⟩

/-- Only one stock has much volume in both timeframes, and an allowlist without it leaves none. -/
theorem busy_combined :
    busy.Returns busyRule "2024-01-03" none () ["A"] ∧
      busy.Returns busyRule "2024-01-03" (some ["B", "C"]) () [] := by
  have hrule : ∃ cs, (busy.compile busyRule).outcome = .ok cs := ⟨_, rfl⟩
  have hcombined := fun allow => (ids_combined busy market marketTexts busyRule "2024-01-03" allow
    () (fun _ _ => rfl) evaluates_marketTexts keyed_market.serves hrule).1 fun _ => by decide
  obtain ⟨ids, hids, hasc, hmem, -⟩ := hcombined none
  have hdaily : busy.stocksOf market (fun r => marketTexts r.text) "2024-01-03" none .daily
      [volumeAbove .daily "5"] = ["A", "B"] := by
    decide +kernel
  have hweekly : busy.stocksOf market (fun r => marketTexts r.text) "2024-01-03" none .weekly
      [volumeAbove .weekly "10"] = ["A"] := by
    decide +kernel
  have hone : ids = ["A"] := by
    refine hasc.eq_of_mem_iff (List.pairwise_singleton ..) fun stock => ?_
    have hactive : busyRule.active = [.daily, .weekly] := rfl
    have hmode : busy.mode = .intersect := rfl
    have hdailyConds : busy.conditions busyRule .daily = .ok [volumeAbove .daily "5"] := rfl
    have hweeklyConds : busy.conditions busyRule .weekly = .ok [volumeAbove .weekly "10"] := rfl
    rw [hmem, hactive, hmode, CombineMode.Decides, List.forall_mem_cons, List.forall_mem_singleton,
      finds_iff keyed_market.serves hdailyConds, finds_iff keyed_market.serves hweeklyConds,
      hdaily, hweekly]
    simp +contextual
  obtain ⟨found, hfound, -, -, hallowed⟩ := hcombined (some ["B", "C"])
  obtain ⟨free, hfree, rfl⟩ := hallowed _ rfl
  obtain rfl : free = ids := Except.ok.inj (Option.some.inj (hfree.symm.trans hids))
  exact ⟨hone ▸ hids, by rw [hone] at hfound; exact hfound⟩

def roomless : Screener Unit :=
  let count := greatestCount + 1
  { busy with settings := { weeklyLookback := count, weeklyCount := count } }

/-- The rule compiles, and its statements would be answered, but no ids are returned. -/
theorem roomless_returns_nothing :
    (∃ cs, (roomless.compile busyRule).outcome = .ok cs) ∧ market.Serves roomless.catalogs ∧
      (∀ r s, (roomless.store.answer r s).1 = .ok (marketTexts r.text)) ∧
      market.Evaluates marketTexts ∧
      ¬ ∃ ids, roomless.Returns busyRule "2024-01-03" none () ids := by
  have hrule : ∃ cs, (roomless.compile busyRule).outcome = .ok cs := ⟨_, rfl⟩
  refine ⟨hrule, keyed_market.serves, fun _ _ => rfl, evaluates_marketTexts, ?_⟩
  obtain ⟨cs, hcs⟩ := hrule
  have hnone : roomless.ids? busyRule "2024-01-03" none () = none :=
    ids?_of_no_room (fun _ _ => ⟨_, rfl⟩) (Nat.lt_succ_self _) hcs (by decide) _ _ _
  rintro ⟨ids, hids⟩
  rw [Returns, hnone] at hids
  cases hids

end Screener

end StockScreen

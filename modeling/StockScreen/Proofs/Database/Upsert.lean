import Mathlib.Data.List.Induction
import StockScreen.Proofs.Database.Insertion

/-! # What an insertion leaves under each key

Under a key a table has the last of the rows that were listed with it, and the
rows under other keys stay. A row without its key takes the place of no other.
So a list of rows that is inserted again changes nothing, unless some of its
rows have no key, which a table without a time accepts.
-/

namespace StockScreen

namespace Table

/-- The rows under a key, or the rows without one. -/
def under (t : Table) (key : Option (List String)) (rows : List Row) : List Row :=
  rows.filter fun row => t.key? row == key

def putAll (t : Table) (rows new : List Row) : List Row := new.foldl t.put rows

def keptKey? (t : Table) (row : Row) : Option (List String) := t.key? (t.keep row)

variable {t : Table} {old new rows : List Row} {row : Row} {k : List String}

theorem mem_under {key : Option (List String)} : row ∈ t.under key rows ↔
    row ∈ rows ∧ t.key? row = key := by
  rw [under, List.mem_filter, beq_iff_eq]

theorem under_append (key : Option (List String)) : t.under key (old ++ new) =
    t.under key old ++ t.under key new := List.filter_append ..

theorem under_eq_nil_iff {key : Option (List String)} :
    t.under key rows = [] ↔ ∀ row ∈ rows, t.key? row ≠ key := by
  simp only [under, List.filter_eq_nil_iff, beq_iff_eq, ne_eq]

theorem sameKey_iff {a b : Row} : t.sameKey a b ↔ ∃ k, t.key? a = some k ∧ t.key? b = some k := by
  rw [sameKey, Bool.and_eq_true, beq_iff_eq, Option.isSome_iff_exists]
  constructor
  · rintro ⟨⟨k, ha⟩, hab⟩
    exact ⟨k, ha, hab ▸ ha⟩
  · rintro ⟨k, ha, hb⟩
    exact ⟨⟨k, ha⟩, ha.trans hb.symm⟩

/-! ## One row -/

theorem under_put_of_eq (h : t.key? row = some k) : t.under (some k) (t.put rows row) = [row] := by
  have hnone : t.under (some k) (rows.filter fun r => !t.sameKey row r) = [] := by
    refine under_eq_nil_iff.mpr fun r hr hk => ?_
    simpa [sameKey_iff.mpr ⟨k, h, hk⟩] using (List.mem_filter.mp hr).2
  have hrow : t.under (some k) [row] = [row] := List.filter_eq_self.mpr (by simpa using h)
  rw [put, under_append, hnone, hrow, List.nil_append]

theorem under_put {key : Option (List String)} (h : t.key? row = key → key = none) :
    t.under key (t.put rows row) = t.under key rows ++ t.under key [row] := by
  have hstay : t.under key (rows.filter fun r => !t.sameKey row r) = t.under key rows := by
    have hother : ∀ r, t.key? r = key → t.sameKey row r = false := by
      intro r hr
      rw [← Bool.not_eq_true, sameKey_iff]
      rintro ⟨k, hrow, hk⟩
      have hkey := hr.symm.trans hk
      cases hkey.symm.trans (h (hrow.trans hkey.symm))
    rw [under, List.filter_filter]
    refine List.filter_congr fun r _ => ?_
    by_cases hr : t.key? r = key
    · rw [hother r hr, Bool.not_false, Bool.and_true]
    · rw [beq_false_of_ne hr, Bool.false_and]
  rw [put, under_append, hstay]

/-! ## Rows one after the other -/

theorem putAll_append_singleton : t.putAll old (new ++ [row]) = t.put (t.putAll old new) row := by
  rw [putAll, List.foldl_append]
  rfl

theorem under_putAll {key : Option (List String)} (h : ∀ row ∈ new, t.key? row = key → key = none) :
    t.under key (t.putAll old new) = t.under key old ++ t.under key new := by
  induction new using List.reverseRecOn with
  | nil => exact (List.append_nil _).symm
  | append_singleton new row ih =>
    obtain ⟨hnew, hrow⟩ := List.forall_mem_append.mp h
    rw [putAll_append_singleton, under_put (hrow row (List.mem_singleton_self row)), ih hnew,
      under_append, List.append_assoc]

theorem under_putAll_none :
    t.under none (t.putAll old new) = t.under none old ++ t.under none new :=
  under_putAll fun _ _ _ => rfl

theorem under_putAll_of_ne (h : ∀ row ∈ new, t.key? row ≠ some k) :
    t.under (some k) (t.putAll old new) = t.under (some k) old := by
  rw [under_putAll fun row hrow hk => absurd hk (h row hrow), under_eq_nil_iff.mpr h,
    List.append_nil]

theorem under_putAll_of_last {before after : List Row} (hrow : t.key? row = some k)
    (hafter : ∀ r ∈ after, t.key? r ≠ some k) :
    t.under (some k) (t.putAll old (before ++ row :: after)) = [row] := by
  have hsplit : t.putAll old (before ++ row :: after) =
      t.putAll (t.put (t.putAll old before) row) after := by
    rw [putAll, List.foldl_append, List.foldl_cons]
    rfl
  rw [hsplit, under_putAll_of_ne hafter, under_put_of_eq hrow]

theorem Keyed.length_under_le (h : t.Keyed rows) (k : List String) :
    (t.under (some k) rows).length ≤ 1 := by
  have honce : (t.under (some k) rows).Pairwise fun a b => t.sameKey a b = false :=
    h.once.sublist List.filter_sublist
  match hunder : t.under (some k) rows with
  | [] => exact Nat.zero_le 1
  | [_] => exact Nat.le_refl 1
  | a :: b :: rest =>
    have ha : t.key? a = some k := (mem_under.mp (hunder ▸ List.mem_cons_self)).2
    have hb : t.key? b = some k :=
      (mem_under.mp (hunder ▸ List.mem_cons_of_mem a List.mem_cons_self)).2
    rw [hunder] at honce
    have hab := (List.pairwise_cons.mp honce).1 b List.mem_cons_self
    rw [sameKey_iff.mpr ⟨k, ha, hb⟩] at hab
    cases hab

/-! ## The same rows again -/

theorem mem_putAll (h : row ∈ t.putAll old new) : row ∈ old ∨ row ∈ new := by
  induction new generalizing old with
  | nil => exact .inl h
  | cons x new ih =>
    rcases ih h with hput | hnew
    · rcases List.mem_append.mp hput with hold | hx
      · exact .inl (List.mem_filter.mp hold).1
      · exact .inr (List.mem_singleton.mp hx ▸ List.mem_cons_self)
    · exact .inr (List.mem_cons_of_mem x hnew)

theorem putAll_eq_append (old new : List Row) : t.putAll old new =
    old.filter (fun r => !new.any fun row => t.sameKey row r) ++ t.putAll [] new := by
  induction new using List.reverseRecOn with
  | nil => simp [putAll]
  | append_singleton new row ih =>
    rw [putAll_append_singleton, putAll_append_singleton, ih, put, put, List.filter_append,
      List.append_assoc, List.filter_filter]
    simp only [List.any_append, List.any_cons, List.any_nil, Bool.or_false, Bool.not_or,
      Bool.and_comm]

/-- The same rows change nothing when they are put again, if each of them has a key, and otherwise
those without a key are there once more. -/
theorem putAll_putAll_eq_iff : t.putAll (t.putAll old new) new = t.putAll old new ↔
    ∀ row ∈ new, (t.key? row).isSome := by
  constructor
  · intro h row hrow
    have hnone : t.under none new = [] := by
      have hunder : t.under none (t.putAll (t.putAll old new) new) =
          t.under none (t.putAll old new) ++ t.under none new := under_putAll_none
      rw [h] at hunder
      exact List.append_right_eq_self.mp hunder.symm
    exact Option.isSome_iff_ne_none.mpr (under_eq_nil_iff.mp hnone row hrow)
  · intro h
    -- A row that is there because it was put has a key, and is replaced.
    have hput : (t.putAll [] new).filter (fun r => !new.any fun row => t.sameKey row r) = [] := by
      refine List.filter_eq_nil_iff.mpr fun r hr => ?_
      have hnew := (mem_putAll hr).resolve_left List.not_mem_nil
      obtain ⟨k, hk⟩ := Option.isSome_iff_exists.mp (h r hnew)
      simpa using ⟨r, hnew, sameKey_iff.mpr ⟨k, hk, hk⟩⟩
    rw [putAll_eq_append (t.putAll old new) new, putAll_eq_append old new,
      List.filter_append, List.filter_filter, hput, List.append_nil]
    simp only [Bool.and_self]

/-! ## What is kept of a row -/

theorem nodup_columnNames (ht : t ∈ all) : t.columnNames.Nodup := by
  have hfund : ∀ name ∈ Standard.fundamentalTables, (fundamental name).columnNames.Nodup := by
    decide
  rcases mem_all.mp ht with ⟨tf, kind, rfl⟩ | ⟨name, hname, rfl⟩ | rfl
  · cases tf <;> cases kind <;> decide
  · exact hfund name hname
  · decide

theorem lookup_map_name {columns : List Column} (h : (columns.map Column.name).Nodup)
    (f : Column → Cell) {c : Column} (hc : c ∈ columns) :
    (columns.map fun c => (c.name, f c)).lookup c.name = some (f c) := by
  induction columns with
  | nil => cases hc
  | cons d columns ih =>
    obtain ⟨hd, hcolumns⟩ := List.nodup_cons.mp h
    rcases List.mem_cons.mp hc with rfl | hc
    · simp
    · have hne : c.name ≠ d.name := fun h => hd (h ▸ List.mem_map_of_mem hc)
      rw [List.map_cons, List.lookup_cons, beq_false_of_ne hne]
      exact ih hcolumns hc

theorem lookup_keep_column (ht : t ∈ all) (row : Row) {c : Column} (hc : c ∈ t.columns) :
    (t.keep row).lookup c.name = some (c.affinity.keep ((row.lookup c.name).getD .null)) :=
  lookup_map_name (nodup_columnNames ht) (fun c => c.affinity.keep ((row.lookup c.name).getD .null))
    hc

theorem keep_null (a : Affinity) : a.keep .null = .null := by
  cases a <;> rfl

theorem accepts_of_fits (h : t.Fits row) (hkey : t.missingKey? (t.keep row) = none) :
    t.Accepts true row := by
  intro fault hrefuses
  have hcreated : t.Refuses (some ([] : List Row)).isSome row fault := hrefuses
  have hw := write_of_refuses hcreated
  rw [write_of_fits _ h, hkey] at hw
  cases hw

theorem Accepts.isSome_keptKey? (h : t.Accepts true row) (hreq : t.keyRequired = true) :
    (t.keptKey? row).isSome := by
  have hcreated : t.Accepts (some ([] : List Row)).isSome row := h
  obtain ⟨_, hrows, hw⟩ := write_of_accepts hcreated
  cases hrows
  have hmissing := (write_eq_ok hw).1
  rw [missingKey?, if_pos hreq, List.find?_eq_none] at hmissing
  refine isSome_mapM_iff.mpr fun c hc => ?_
  simpa [Option.isSome_iff_ne_none] using hmissing c hc

structure Upserts (t : Table) (rows old new : List Row) : Prop where
  once : ∀ k, (t.under (some k) new).length ≤ 1
  listed : ∀ k before row after, rows = before ++ row :: after → t.keptKey? row = some k →
    (∀ r ∈ after, t.keptKey? r ≠ some k) → t.under (some k) new = [t.keep row]
  cells : ∀ row ∈ rows, ∀ c ∈ t.columns,
    (t.keep row).lookup c.name = some (c.affinity.keep ((row.lookup c.name).getD .null))
  absent : ∀ row ∈ rows, ∀ c ∈ t.columns,
    row.lookup c.name = none → (t.keep row).lookup c.name = some .null
  unlisted : ∀ k, (∀ row ∈ rows, t.keptKey? row ≠ some k) →
    t.under (some k) new = t.under (some k) old
  unkeyed : t.under none new =
    t.under none old ++ (rows.filter fun row => (t.keptKey? row).isNone).map t.keep

theorem Keyed.upserts (ht : t ∈ all) (h : t.Keyed (t.putAll old (rows.map t.keep))) :
    t.Upserts rows old (t.putAll old (rows.map t.keep)) where
  once := h.length_under_le
  listed := by
    rintro k before row after rfl hrow hafter
    rw [List.map_append, List.map_cons]
    exact under_putAll_of_last hrow (List.forall_mem_map.mpr hafter)
  cells row _ c hc := lookup_keep_column ht row hc
  absent row _ c hc hrow := by
    rw [lookup_keep_column ht row hc, hrow, Option.getD_none, keep_null]
  unlisted k hk := under_putAll_of_ne (List.forall_mem_map.mpr hk)
  unkeyed := by
    rw [under_putAll_none, under, under, List.filter_map]
    simp only [Function.comp_def, keptKey?, Option.beq_none]

end Table

namespace Database

variable {db db' : Database} {t : Table} {rows : List Row} {name : String} {n : Nat}

theorem rows?_withRows_putAll : (db.withRows t rows).rows? t.name =
    (db.rows? t.name).map fun old => t.putAll old (rows.map t.keep) := by
  simp only [rows?_withRows, Table.putAll, List.foldl_map]

theorem result_insert_eq_ok_iff : (insert name rows).result db = (.ok n, db') ↔
    n = rows.length ∧ ∃ t, Table.find? name = some t ∧
      (∀ row ∈ rows, t.Accepts (db.rows? name).isSome row) ∧ db' = db.withRows t rows := by
  constructor
  · intro h
    cases hname : Table.find? name with
    | none =>
      cases (result_insert_of_rejects (.unknownTable hname)).symm.trans h
    | some t =>
      rcases accepts_or_refuses t (db.rows? name).isSome rows with
        hrows | ⟨before, row, after, fault, hrows, hbefore, hrow⟩
      · cases (result_insert_of_accepts hname hrows).symm.trans h
        exact ⟨rfl, t, rfl, hrows, rfl⟩
      · cases (result_insert_of_rejects (.row hname hrows hbefore hrow)).symm.trans h
  · rintro ⟨rfl, t, hname, hrows, rfl⟩
    exact result_insert_of_accepts hname hrows

theorem result_insert_again (hname : Table.find? name = some t)
    (hrows : ∀ row ∈ rows, t.Accepts (db.rows? name).isSome row)
    (hcreated : (db.rows? name).isSome) :
    let twice := (insert name rows).result (db.withRows t rows)
    twice.1 = .ok rows.length ∧
      ((∀ other, twice.2.rows? other = (db.withRows t rows).rows? other) ↔
        ∀ row ∈ rows, (t.keptKey? row).isSome) := by
  obtain rfl := name_of_find? hname
  obtain ⟨old, hold⟩ := Option.isSome_iff_exists.mp hcreated
  have honce : (db.withRows t rows).rows? t.name = some (t.putAll old (rows.map t.keep)) := by
    rw [rows?_withRows_putAll, hold, Option.map_some]
  have hagain : ∀ row ∈ rows, t.Accepts ((db.withRows t rows).rows? t.name).isSome row := by
    rwa [honce, Option.isSome_some, ← hcreated]
  intro twice
  have htwice : twice = (.ok rows.length, (db.withRows t rows).withRows t rows) :=
    result_insert_of_accepts hname hagain
  rw [htwice]
  refine ⟨rfl, ?_⟩
  have hkeys : t.putAll (t.putAll old (rows.map t.keep)) (rows.map t.keep) =
      t.putAll old (rows.map t.keep) ↔ ∀ row ∈ rows, (t.keptKey? row).isSome :=
    Table.putAll_putAll_eq_iff.trans List.forall_mem_map
  constructor
  · intro h
    have hsame := h t.name
    rw [rows?_withRows_putAll, honce, Option.map_some, Option.some.injEq] at hsame
    exact hkeys.mp hsame
  · intro h other
    by_cases hother : other = t.name
    · rw [hother, rows?_withRows_putAll, honce, Option.map_some, hkeys.mpr h]
    · exact rows?_withRows_of_ne hother

/-- Rows that are inserted go under their keys. Under each key that is listed the table has the last
row listed with it, and nothing else changes, but rows without a key are added. Inserting the same
rows again is accepted, and changes the table just when one of them has no key. -/
theorem insert_upserts (inserts : List (String × List Row)) (name : String) (rows : List Row)
    {n : Nat} (h : ((insert name rows).result (createTables {} |>.insertAll inserts)).1 = .ok n) :
    let db := createTables {} |>.insertAll inserts
    let once := (insert name rows).result db
    let twice := (insert name rows).result once.2
    ∃ t old new, Table.find? name = some t ∧ db.rows? name = some old ∧
      once.2.rows? name = some new ∧ t.Upserts rows old new ∧
      (∀ other, other ≠ name → once.2.rows? other = db.rows? other) ∧ twice.1 = .ok n ∧
      ((∀ other, twice.2.rows? other = once.2.rows? other) ↔
        ∀ row ∈ rows, (t.keptKey? row).isSome) ∧
      (t.keyRequired = true → ∀ row ∈ rows, (t.keptKey? row).isSome) := by
  intro db once twice
  have honce : (insert name rows).result db = (.ok n, once.2) := Prod.ext h rfl
  obtain ⟨rfl, t, hname, hrows, hdb⟩ := result_insert_eq_ok_iff.mp honce
  have ht : t ∈ Table.all := List.mem_of_find?_eq_some hname
  have hkeyed : db.Keyed := keyed_createTables.insertAll inserts
  obtain rfl := name_of_find? hname
  obtain ⟨old, hold, -⟩ := hkeyed t ht
  have hcreated : (db.rows? t.name).isSome := by rw [hold]; rfl
  have hnew : once.2.rows? t.name = some (t.putAll old (rows.map t.keep)) := by
    rw [hdb, rows?_withRows_putAll, hold, Option.map_some]
  obtain ⟨new, hsome, hnewKeyed⟩ := (hkeyed.insert t.name rows).state t ht
  obtain rfl : t.putAll old (rows.map t.keep) = new := Option.some.inj (hnew.symm.trans hsome)
  obtain ⟨hagain, hsame⟩ := result_insert_again hname hrows hcreated
  rw [← hdb] at hagain hsame
  refine ⟨t, old, _, hname, hold, hnew, hnewKeyed.upserts ht, ?_, hagain, hsame, ?_⟩
  · intro other hother
    rw [hdb, rows?_withRows_of_ne hother]
  · intro hreq row hrow
    exact Table.Accepts.isSome_keptKey? (hcreated ▸ hrows row hrow) hreq

/-- Two rows with one key, which the second one gives as a number. -/
def relisted : List Row :=
  [[("stock_id", .text "2330"), ("t", .text "2024-01-02"), ("v", .integer 5)],
    [("stock_id", .integer 2330), ("t", .text "2024-01-02")]]

theorem relisted_upserts :
    let db := createTables {} |>.insertAll [("daily_deal", relisted)]
    let t := Table.timeframe .daily .raw
    ((insert "daily_deal" relisted).result db).1 = .ok 2 ∧
      ∃ new, ((insert "daily_deal" relisted).result db).2.rows? "daily_deal" = some new ∧
        t.under (some ["2330", "2024-01-02"]) new =
          [t.keep [("stock_id", .integer 2330), ("t", .text "2024-01-02")]] := by
  intro db t
  have ht : t ∈ Table.all := Table.mem_all.mpr (.inl ⟨_, _, rfl⟩)
  have hfind : Table.find? "daily_deal" = some t := Table.find?_name ht
  have hcreated : (db.rows? "daily_deal").isSome = true := by
    obtain ⟨old, hold, -⟩ := keyed_createTables.insertAll [("daily_deal", relisted)] t ht
    exact Option.isSome_iff_exists.mpr ⟨old, hold⟩
  have haccepts : ∀ row ∈ relisted, t.Accepts true row := by
    intro row hrow
    rcases List.mem_pair.mp hrow with rfl | rfl <;>
      exact Table.accepts_of_fits ⟨nofun, by decide⟩ rfl
  have hok : ((insert "daily_deal" relisted).result db).1 = .ok 2 :=
    congrArg Prod.fst (result_insert_of_accepts hfind (hcreated ▸ haccepts))
  obtain ⟨u, old, new, hname, -, hnew, hupserts, -⟩ :=
    insert_upserts [("daily_deal", relisted)] "daily_deal" relisted hok
  obtain rfl : t = u := Option.some.inj (hfind.symm.trans hname)
  exact ⟨hok, new, hnew, hupserts.listed _ [_] _ [] rfl (by decide) nofun⟩

/-- A row without its key is there twice when it is inserted twice. -/
theorem unkeyed_row_is_repeated :
    let row : Row := [("stock_id", .null), ("stock_name", .text "Acme")]
    let kept : Row := [("stock_id", .null), ("stock_name", .text "Acme"),
      ("industry_group", .null), ("market_type", .null)]
    let once := (insert "stock" [row]).result (createTables {})
    let twice := (insert "stock" [row]).result once.2
    once.1 = .ok 1 ∧ once.2.rows? "stock" = some [kept] ∧
      twice.1 = .ok 1 ∧ twice.2.rows? "stock" = some [kept, kept] := by
  intro row kept once twice
  have ht : Table.stock ∈ Table.all := Table.mem_all.mpr (.inr (.inr rfl))
  have hfind : Table.find? "stock" = some .stock := Table.find?_name ht
  have haccepts : ∀ r ∈ [row], Table.stock.Accepts true r :=
    List.forall_mem_singleton.mpr (Table.accepts_of_fits ⟨nofun, by decide⟩ rfl)
  have hold : (createTables {}).rows? "stock" = some [] := rows?_createTables {} ht
  have honce : once = (.ok 1, (createTables {}).withRows .stock [row]) :=
    result_insert_of_accepts hfind (hold ▸ haccepts)
  have hrows : once.2.rows? "stock" = some [kept] := by
    rw [honce]
    exact rows?_withRows_putAll.trans (by rw [Table.name, hold]; rfl)
  have htwice : twice = (.ok 1, once.2.withRows .stock [row]) :=
    result_insert_of_accepts hfind (hrows ▸ haccepts)
  refine ⟨by rw [honce], hrows, by rw [htwice], ?_⟩
  rw [htwice]
  exact rows?_withRows_putAll.trans (by rw [Table.name, hrows]; rfl)

end Database

end StockScreen

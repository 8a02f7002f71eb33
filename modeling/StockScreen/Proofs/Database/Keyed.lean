import StockScreen.Database.Insert
import StockScreen.Proofs.Lists
import StockScreen.Proofs.Ordered
import StockScreen.Proofs.Session.Ensures

/-! # Keys of the tables

In every database that is made by creating the tables and writing rows, a
table has at most one row for each key. The parts of a key are texts; tables
without a time may have rows whose key is missing.
-/

namespace StockScreen

namespace Standard

def fundamentalTables : List String := fundamentalColumns.map fun (_, _, table) => table

end Standard

namespace Table

variable {t : Table} {rows : List Row} {row : Row}

theorem mem_all : t ∈ all ↔
    (∃ tf kind, t = timeframe tf kind) ∨
      (∃ name ∈ Standard.fundamentalTables, t = fundamental name) ∨ t = stock := by
  have htf : t ∈ Timeframe.all.flatMap (fun tf => [timeframe tf .raw, timeframe tf .derived]) ↔
      ∃ tf kind, t = timeframe tf kind := by
    constructor
    · intro h
      obtain ⟨tf, -, h⟩ := List.mem_flatMap.mp h
      rcases List.mem_cons.mp h with rfl | h
      · exact ⟨tf, .raw, rfl⟩
      · exact ⟨tf, .derived, List.mem_singleton.mp h⟩
    · rintro ⟨tf, kind, rfl⟩
      refine List.mem_flatMap.mpr ⟨tf, by cases tf <;> decide, ?_⟩
      cases kind <;> simp
  rw [all, List.mem_append, List.mem_append, htf, or_assoc, List.mem_singleton, List.mem_map]
  simp only [mem_ascending, Standard.fundamentalTables, eq_comm]

theorem name_injective {u : Table} (ht : t ∈ all) (hu : u ∈ all) (h : t.name = u.name) :
    t = u := by
  have hfund : ∀ tf kind, ∀ name ∈ Standard.fundamentalTables,
      (timeframe tf kind).name ≠ (fundamental name).name := by
    intro tf kind
    cases tf <;> cases kind <;> decide
  have hstock : ∀ name ∈ Standard.fundamentalTables, (fundamental name).name ≠ stock.name := by
    decide
  rcases mem_all.mp ht with ⟨tf, kind, rfl⟩ | ⟨name, hname, rfl⟩ | rfl <;>
    rcases mem_all.mp hu with ⟨tf', kind', rfl⟩ | ⟨name', hname', rfl⟩ | rfl
  · revert h
    cases tf <;> cases kind <;> cases tf' <;> cases kind' <;> decide
  · exact absurd h (hfund tf kind name' hname')
  · revert h
    cases tf <;> cases kind <;> decide
  · exact absurd h.symm (hfund tf' kind' name hname)
  · exact congrArg fundamental h
  · exact absurd h (hstock name hname)
  · revert h
    cases tf' <;> cases kind' <;> decide
  · exact absurd h.symm (hstock name' hname')
  · rfl

theorem find?_name (ht : t ∈ all) : find? t.name = some t :=
  find?_key ht fun _ hu hname => name_injective hu ht hname

def KeyCell (t : Table) (c : Option Cell) : Prop :=
  (∃ s, c = some (.text s)) ∨ t.keyRequired = false ∧ c = some .null

/-- Rows with a key each, none of which occurs twice. -/
structure Keyed (t : Table) (rows : List Row) : Prop where
  cells : ∀ row ∈ rows, ∀ c ∈ t.key, t.KeyCell (row.lookup c)
  once : rows.Pairwise fun a b => t.sameKey a b = false

theorem keyed_nil (t : Table) : t.Keyed [] := ⟨nofun, .nil⟩

theorem sameKey_comm (t : Table) (a b : Row) : t.sameKey a b = t.sameKey b a := by
  rw [Bool.eq_iff_iff]
  simp only [sameKey, Bool.and_eq_true, beq_iff_eq]
  constructor
  · rintro ⟨hs, he⟩
    exact ⟨he ▸ hs, he.symm⟩
  · rintro ⟨hs, he⟩
    exact ⟨he ▸ hs, he.symm⟩

theorem Keyed.put (h : t.Keyed rows) (hrow : ∀ c ∈ t.key, t.KeyCell (row.lookup c)) :
    t.Keyed (t.put rows row) where
  cells := by
    intro r hr
    rcases List.mem_append.mp hr with hr | hr
    · exact h.cells r (List.mem_filter.mp hr).1
    · rw [List.mem_singleton.mp hr]
      exact hrow
  once := by
    refine List.pairwise_append.mpr ⟨h.once.sublist List.filter_sublist,
      List.pairwise_singleton .., ?_⟩
    intro r hr x hx
    rw [List.mem_singleton.mp hx, sameKey_comm]
    simpa using (List.mem_filter.mp hr).2

theorem lookup_keep (t : Table) (row : Row) {c : String} (hc : c ∈ t.key) :
    (t.keep row).lookup c = some (Affinity.text.keep ((row.lookup c).getD .null)) := by
  rw [keep, columns, List.map_append, List.map_map]
  exact lookup_map_append (fun c => Affinity.text.keep ((row.lookup c).getD .null)) _ hc

theorem keep_text (c : Cell) :
    (∃ s, Affinity.text.keep c = .text s) ∨ Affinity.text.keep c = .null := by
  cases c with
  | null => exact .inr rfl
  | integer n => exact .inl ⟨_, rfl⟩
  | text s => exact .inl ⟨_, rfl⟩
  | real x =>
    rw [Affinity.keep, Cell.valid]
    split
    · exact .inr rfl
    · exact .inl ⟨_, rfl⟩

theorem write_eq_ok {rows' : List Row} (hw : t.write (some rows) row = .ok rows') :
    t.missingKey? (t.keep row) = none ∧ rows' = t.put rows (t.keep row) := by
  unfold write openFor at hw
  cases hu : t.unknownColumn? row with
  | some c => simp [hu, bind, Except.bind, throw, throwThe, MonadExceptOf.throw] at hw
  | none =>
    cases he : row.isEmpty with
    | true => simp [hu, he, bind, Except.bind, throw, throwThe, MonadExceptOf.throw] at hw
    | false =>
      cases hm : t.missingKey? (t.keep row) with
      | some c =>
        simp [hu, he, hm, bind, Except.bind, pure, Except.pure, throw, throwThe,
          MonadExceptOf.throw] at hw
      | none =>
        refine ⟨rfl, ?_⟩
        simpa [hu, he, hm, bind, Except.bind, pure, Except.pure, eq_comm] using hw

theorem Keyed.write {rows' : List Row} (h : t.Keyed rows)
    (hw : t.write (some rows) row = .ok rows') : t.Keyed rows' := by
  obtain ⟨hm, rfl⟩ := write_eq_ok hw
  apply h.put
  intro c hc
  have hl := t.lookup_keep row hc
  rcases keep_text ((row.lookup c).getD .null) with ⟨s, hs⟩ | hs
  · exact .inl ⟨s, hl.trans (congrArg some hs)⟩
  · refine .inr ⟨?_, hl.trans (congrArg some hs)⟩
    cases hreq : t.keyRequired with
    | false => rfl
    | true =>
      simp only [missingKey?, hreq, if_true, List.find?_eq_none] at hm
      exact absurd (by rw [Row.text?, hl, hs]; rfl) (hm c hc)

end Table

namespace Database

variable {db : Database} {t : Table}

def KeyedAt (db : Database) (t : Table) : Prop :=
  ∃ rows, db.rows? t.name = some rows ∧ t.Keyed rows

def Keyed (db : Database) : Prop := ∀ t ∈ Table.all, db.KeyedAt t

theorem rows?_createTables (db : Database) {t : Table} (ht : t ∈ Table.all) :
    db.createTables.rows? t.name = some ((db.rows? t.name).getD []) := by
  unfold rows? createTables
  rw [List.lookup_append]
  cases hl : db.contents.lookup t.name with
  | some rows => rfl
  | none =>
    have hmem : t.name ∈ (Table.all.filter fun t => (db.rows? t.name).isNone).map Table.name :=
      List.mem_map_of_mem (List.mem_filter.mpr ⟨ht, by rw [rows?, hl]; rfl⟩)
    have hnew := lookup_map_append (fun _ => ([] : List Row)) [] hmem
    rw [List.append_nil, List.map_map] at hnew
    exact hnew

theorem keyed_createTables : ({} : Database).createTables.Keyed := by
  intro t ht
  exact ⟨[], rows?_createTables {} ht, t.keyed_nil⟩

theorem rows?_setRows (db : Database) (name other : String) (rows : List Row) :
    (db.setRows name rows).rows? other =
      if other = name then (db.rows? other).map fun _ => rows else db.rows? other := by
  unfold rows? setRows
  induction db.contents with
  | nil => simp
  | cons entry contents ih =>
    obtain ⟨key, old⟩ := entry
    by_cases hk : key = name <;> by_cases ho : other = key <;> by_cases hn : other = name <;>
      simp_all [List.lookup_cons, beq_false_of_ne]

theorem Keyed.writeRow (h : db.Keyed) (ht : t ∈ Table.all) (row : Row) :
    (Database.writeRow t row).Ensures db (fun _ db' => db'.Keyed) fun _ db' => db'.Keyed := by
  obtain ⟨rows, hr, hk⟩ := h t ht
  unfold Session.Ensures Database.writeRow
  rw [hr]
  cases hw : t.write (some rows) row with
  | error fault => exact h
  | ok rows' =>
    intro u hu
    by_cases hn : u.name = t.name
    · obtain rfl := Table.name_injective hu ht hn
      exact ⟨rows', by rw [rows?_setRows, if_pos rfl, hr]; rfl, hk.write hw⟩
    · obtain ⟨us, hus, hku⟩ := h u hu
      exact ⟨us, by rw [rows?_setRows, if_neg hn, hus], hku⟩

theorem Keyed.writeRows (h : db.Keyed) (ht : t ∈ Table.all) (rows : List Row) :
    (Database.writeRows t rows).Ensures db (fun _ db' => db'.Keyed) fun _ db' => db'.Keyed := by
  induction rows generalizing db with
  | nil => exact h
  | cons row rows ih =>
    rw [Database.writeRows, Session.ensures_bind]
    exact (h.writeRow ht row).mono (fun _ _ h' => ih h') fun _ _ h' => h'

/-- Whatever is inserted, and whether or not it is refused, the keys are kept. -/
theorem Keyed.insert (h : db.Keyed) (name : String) (rows : List Row) :
    (Database.insert name rows).Ensures db (fun _ db' => db'.Keyed) fun _ db' => db'.Keyed := by
  unfold Database.insert
  cases hf : Table.find? name with
  | none => exact h
  | some t =>
    have ht : t ∈ Table.all := List.mem_of_find?_eq_some hf
    simp only [Session.ensures_bind, Session.ensures_pure, Session.ensures_atomically]
    exact (h.writeRows ht rows).mono (fun _ _ h' => h') fun _ _ _ => h

def insertAll (db : Database) : List (String × List Row) → Database
  | [] => db
  | (name, rows) :: inserts => (Database.insert name rows db).2.insertAll inserts

theorem Keyed.insertAll (h : db.Keyed) (inserts : List (String × List Row)) :
    (db.insertAll inserts).Keyed := by
  induction inserts generalizing db with
  | nil => exact h
  | cons entry inserts ih =>
    obtain ⟨name, rows⟩ := entry
    exact ih (h.insert name rows).state

end Database

end StockScreen

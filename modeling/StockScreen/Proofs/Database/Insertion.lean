import StockScreen.Proofs.Database.Keyed
import StockScreen.Proofs.Session.Result

/-! # Insertions

A row is refused for what it names or lacks, whatever rows the table has. Rows
are written one after the other in a transaction, so that a row that is refused
at any place of a list takes back those before it.
-/

namespace StockScreen

/-- There is nothing in the column: no cell, or one that is null or not a number. -/
def Row.Lacks (row : Row) (column : String) : Prop :=
  ∀ cell, row.lookup column = some cell → cell.valid = .null

namespace Table

/-- The row has columns, and the table has all of them. -/
def Fits (t : Table) (row : Row) : Prop := row ≠ [] ∧ ∀ c ∈ row.map Prod.fst, c ∈ t.columnNames

/-- The fault with which a row is refused. It depends on whether the table has been created, and not
on the rows that it has. -/
inductive Refuses (t : Table) (created : Bool) (row : Row) : StoreFault → Prop
  | unknownColumn {c : String} (hc : c ∈ row.map Prod.fst) (hnew : c ∉ t.columnNames)
      (hfirst : ∀ d ∈ row.map Prod.fst, d ∉ t.columnNames → c ≤ d) :
      t.Refuses created row (t.unknownColumn c)
  | noColumn (hrow : row = []) : t.Refuses created row t.noColumn
  | notCreated (hfits : t.Fits row) (hcreated : created = false) :
      t.Refuses created row (.query s!"no such table: {t.name}")
  | missingKey {c : String} {before after : List String} (hfits : t.Fits row)
      (hcreated : created = true) (hrequired : t.keyRequired = true)
      (hkey : t.key = before ++ c :: after) (hc : row.Lacks c)
      (hbefore : ∀ d ∈ before, ¬ row.Lacks d) : t.Refuses created row (t.missingKey c)

def Accepts (t : Table) (created : Bool) (row : Row) : Prop :=
  ∀ fault, ¬ t.Refuses created row fault

variable {t : Table} {rows? : Option (List Row)} {rows : List Row} {row : Row} {c : String}
  {fault : StoreFault}

theorem unknownColumn?_eq_some_iff : t.unknownColumn? row = some c ↔
    c ∈ row.map Prod.fst ∧ c ∉ t.columnNames ∧
      ∀ d ∈ row.map Prod.fst, d ∉ t.columnNames → c ≤ d := by
  rw [unknownColumn?, find?_ascending_eq_some_iff]
  simp only [Bool.not_eq_true', List.contains_eq_mem, decide_eq_false_iff_not]

theorem unknownColumn?_eq_none_iff :
    t.unknownColumn? row = none ↔ ∀ c ∈ row.map Prod.fst, c ∈ t.columnNames := by
  simp only [unknownColumn?, List.find?_eq_none, mem_ascending, Bool.not_eq_true',
    Bool.not_eq_false, List.contains_eq_mem, decide_eq_true_eq]

theorem text?_keep_eq_none_iff (hc : c ∈ t.key) :
    ((t.keep row).text? c).isNone ↔ row.Lacks c := by
  have hwritten : ∀ cell : Cell, cell.written.text?.isNone ↔ cell = .null := by
    intro cell
    cases cell <;> simp [Cell.written, Cell.text?]
  rw [Row.text?, lookup_keep t row hc, Option.bind_some, Affinity.keep, hwritten, Row.Lacks]
  cases row.lookup c with
  | none => simp [Cell.valid]
  | some cell => simp

theorem missingKey?_keep_eq_some_iff : t.missingKey? (t.keep row) = some c ↔
    t.keyRequired = true ∧ ∃ before after, t.key = before ++ c :: after ∧ row.Lacks c ∧
      ∀ d ∈ before, ¬ row.Lacks d := by
  unfold missingKey?
  cases hreq : t.keyRequired with
  | false => simp
  | true =>
    rw [if_pos rfl, List.find?_eq_some_iff_append]
    constructor
    · rintro ⟨hc, before, after, hkey, hbefore⟩
      refine ⟨rfl, before, after, hkey, ?_, ?_⟩
      · exact (text?_keep_eq_none_iff (by simp [hkey])).mp hc
      · intro d hd hlacks
        have hnone : ((t.keep row).text? d).isNone :=
          (text?_keep_eq_none_iff (by simp [hkey, hd])).mpr hlacks
        simpa [hnone] using hbefore d hd
    · rintro ⟨-, before, after, hkey, hc, hbefore⟩
      refine ⟨(text?_keep_eq_none_iff (by simp [hkey])).mpr hc, before, after, hkey, ?_⟩
      intro d hd
      have hgiven : ¬ ((t.keep row).text? d).isNone :=
        fun hnone => hbefore d hd ((text?_keep_eq_none_iff (by simp [hkey, hd])).mp hnone)
      simpa [Option.isSome_iff_ne_none] using hgiven

theorem write_of_unknownColumn (h : t.unknownColumn? row = some c) :
    t.write rows? row = .error (t.unknownColumn c) := by
  simp [write, openFor, h, bind, Except.bind, throw, throwThe, MonadExceptOf.throw]

theorem write_nil : t.write rows? [] = .error t.noColumn := by
  have hu : t.unknownColumn? [] = none := unknownColumn?_eq_none_iff.mpr nofun
  simp [write, openFor, hu, bind, Except.bind, throw, throwThe, MonadExceptOf.throw]

theorem write_of_fits (rows? : Option (List Row)) (h : t.Fits row) : t.write rows? row =
    match rows?, t.missingKey? (t.keep row) with
    | none, _ => .error (.query s!"no such table: {t.name}")
    | some _, some c => .error (t.missingKey c)
    | some rows, none => .ok (t.put rows (t.keep row)) := by
  have hu := unknownColumn?_eq_none_iff.mpr h.2
  have he : row.isEmpty = false := by simpa using h.1
  cases rows? with
  | none =>
    simp [write, openFor, hu, he, bind, Except.bind, throw, throwThe, MonadExceptOf.throw]
  | some rows =>
    cases hm : t.missingKey? (t.keep row) <;>
      simp [write, openFor, hu, he, hm, bind, Except.bind, pure, Except.pure, throw, throwThe,
        MonadExceptOf.throw]

theorem cases_fits (t : Table) (row : Row) :
    (∃ c, t.unknownColumn? row = some c) ∨ row = [] ∨ t.Fits row := by
  cases hu : t.unknownColumn? row with
  | some c => exact .inl ⟨c, rfl⟩
  | none =>
    by_cases hrow : row = []
    · exact .inr (.inl hrow)
    · exact .inr (.inr ⟨hrow, unknownColumn?_eq_none_iff.mp hu⟩)

theorem write_of_refuses (h : t.Refuses rows?.isSome row fault) :
    t.write rows? row = .error fault := by
  cases h with
  | unknownColumn hc hnew hfirst =>
    exact write_of_unknownColumn (unknownColumn?_eq_some_iff.mpr ⟨hc, hnew, hfirst⟩)
  | noColumn hrow =>
    subst hrow
    exact write_nil
  | notCreated hfits hcreated =>
    obtain rfl := Option.isNone_iff_eq_none.mp (Option.isSome_eq_false_iff.mp hcreated)
    exact write_of_fits none hfits
  | missingKey hfits hcreated hreq hkey hc hbefore =>
    obtain ⟨rows, rfl⟩ := Option.isSome_iff_exists.mp hcreated
    rw [write_of_fits _ hfits, missingKey?_keep_eq_some_iff.mpr ⟨hreq, _, _, hkey, hc, hbefore⟩]

theorem refuses_of_write (h : t.write rows? row = .error fault) :
    t.Refuses rows?.isSome row fault := by
  rcases t.cases_fits row with ⟨c, hu⟩ | rfl | hfits
  · rw [write_of_unknownColumn hu] at h
    cases h
    obtain ⟨hc, hnew, hfirst⟩ := unknownColumn?_eq_some_iff.mp hu
    exact .unknownColumn hc hnew hfirst
  · rw [write_nil] at h
    cases h
    exact .noColumn rfl
  · rw [write_of_fits _ hfits] at h
    cases rows? with
    | none =>
      cases h
      exact .notCreated hfits rfl
    | some rows =>
      cases hm : t.missingKey? (t.keep row) with
      | none =>
        rw [hm] at h
        cases h
      | some c =>
        rw [hm] at h
        cases h
        obtain ⟨hreq, before, after, hkey, hc, hbefore⟩ := missingKey?_keep_eq_some_iff.mp hm
        exact .missingKey hfits rfl hreq hkey hc hbefore

theorem write_of_accepts (h : t.Accepts rows?.isSome row) :
    ∃ rows, rows? = some rows ∧ t.write rows? row = .ok (t.put rows (t.keep row)) := by
  have hok : ∀ fault, t.write rows? row ≠ .error fault :=
    fun fault hw => h fault (refuses_of_write hw)
  rcases t.cases_fits row with ⟨c, hu⟩ | rfl | hfits
  · exact absurd (write_of_unknownColumn hu) (hok _)
  · exact absurd write_nil (hok _)
  · have hw := write_of_fits rows? hfits
    cases rows? with
    | none => exact absurd hw (hok _)
    | some rows =>
      cases hm : t.missingKey? (t.keep row) with
      | some c =>
        rw [hm] at hw
        exact absurd hw (hok _)
      | none =>
        rw [hm] at hw
        exact ⟨rows, rfl, hw⟩

end Table

/-! ## Rows one after the other -/

namespace Database

def withRow (db : Database) (t : Table) (row : Row) : Database :=
  db.setRows t.name (t.put ((db.rows? t.name).getD []) (t.keep row))

def withRows (db : Database) (t : Table) (rows : List Row) : Database :=
  rows.foldl (fun db row => db.withRow t row) db

/-- Why rows are not inserted: there is no such table, or a row is the first that is refused. -/
inductive Rejects (db : Database) (name : String) (rows : List Row) : ScreenError → Prop
  | unknownTable (hname : Table.find? name = none) :
      db.Rejects name rows (.store (.query s!"unknown table '{name}'"))
  | row {t : Table} {before after : List Row} {row : Row} {fault : StoreFault}
      (hname : Table.find? name = some t) (hrows : rows = before ++ row :: after)
      (hbefore : ∀ r ∈ before, t.Accepts (db.rows? name).isSome r)
      (hrow : t.Refuses (db.rows? name).isSome row fault) : db.Rejects name rows (.store fault)

variable {db : Database} {t : Table} {row : Row} {rows before after : List Row}
  {fault : StoreFault} {name : String}

theorem rows?_withRow (other : String) : (db.withRow t row).rows? other =
    if other = t.name then (db.rows? other).map fun rows => t.put rows (t.keep row)
    else db.rows? other := by
  rw [withRow, rows?_setRows]
  split
  · next h =>
    subst h
    cases db.rows? t.name <;> rfl
  · rfl

theorem isSome_rows?_withRow :
    ((db.withRow t row).rows? t.name).isSome = (db.rows? t.name).isSome := by
  rw [rows?_withRow, if_pos rfl, Option.isSome_map]

theorem rows?_withRows_of_ne {other : String} (h : other ≠ t.name) :
    (db.withRows t rows).rows? other = db.rows? other := by
  induction rows generalizing db with
  | nil => rfl
  | cons row rows ih => exact ih.trans ((rows?_withRow other).trans (if_neg h))

theorem rows?_withRows : (db.withRows t rows).rows? t.name =
    (db.rows? t.name).map fun old => rows.foldl (fun kept row => t.put kept (t.keep row)) old := by
  induction rows generalizing db with
  | nil => simp [withRows]
  | cons row rows ih =>
    refine ih.trans ?_
    rw [rows?_withRow, if_pos rfl, Option.map_map]
    rfl

theorem result_writeRow_of_accepts (h : t.Accepts (db.rows? t.name).isSome row) :
    (writeRow t row).result db = (.ok (), db.withRow t row) := by
  obtain ⟨rows, hrows, hw⟩ := Table.write_of_accepts h
  have hrow : db.withRow t row = db.setRows t.name (t.put rows (t.keep row)) := by
    rw [withRow, hrows, Option.getD_some]
  simp only [Session.result, writeRow, hw, hrow]
  rfl

theorem result_writeRow_of_refuses (h : t.Refuses (db.rows? t.name).isSome row fault) :
    (writeRow t row).result db = (.error (.store fault), db) := by
  have hw := Table.write_of_refuses h
  simp only [Session.result, writeRow, hw]
  rfl

theorem result_writeRows_append (h : ∀ row ∈ before, t.Accepts (db.rows? t.name).isSome row) :
    (writeRows t (before ++ after)).result db =
      (writeRows t after).result (db.withRows t before) := by
  induction before generalizing db with
  | nil => rfl
  | cons row before ih =>
    obtain ⟨hrow, hbefore⟩ := List.forall_mem_cons.mp h
    rw [List.cons_append, writeRows, Session.result_bind_of_ok (result_writeRow_of_accepts hrow)]
    apply ih
    rwa [isSome_rows?_withRow]

theorem result_writeRows_of_accepts (h : ∀ row ∈ rows, t.Accepts (db.rows? t.name).isSome row) :
    (writeRows t rows).result db = (.ok (), db.withRows t rows) := by
  rw [← List.append_nil rows, result_writeRows_append h, List.append_nil]
  rfl

theorem result_writeRows_of_refuses (after : List Row)
    (hbefore : ∀ row ∈ before, t.Accepts (db.rows? t.name).isSome row)
    (hrow : t.Refuses (db.rows? t.name).isSome row fault) :
    (writeRows t (before ++ row :: after)).result db =
      (.error (.store fault), db.withRows t before) := by
  have hcreated : ((db.withRows t before).rows? t.name).isSome = (db.rows? t.name).isSome := by
    rw [rows?_withRows, Option.isSome_map]
  rw [result_writeRows_append hbefore, writeRows,
    Session.result_bind_of_error (result_writeRow_of_refuses (hcreated.symm ▸ hrow))]

theorem accepts_or_refuses (t : Table) (created : Bool) (rows : List Row) :
    (∀ row ∈ rows, t.Accepts created row) ∨ ∃ before row after fault,
      rows = before ++ row :: after ∧ (∀ r ∈ before, t.Accepts created r) ∧
        t.Refuses created row fault := by
  induction rows with
  | nil => exact .inl nofun
  | cons row rows ih =>
    by_cases hrow : t.Accepts created row
    · rcases ih with hrows | ⟨before, x, after, fault, rfl, hbefore, hx⟩
      · exact .inl (List.forall_mem_cons.mpr ⟨hrow, hrows⟩)
      · exact .inr ⟨row :: before, x, after, fault, rfl,
          List.forall_mem_cons.mpr ⟨hrow, hbefore⟩, hx⟩
    · obtain ⟨fault, hfault⟩ := Classical.not_forall_not.mp hrow
      exact .inr ⟨[], row, rows, fault, rfl, nofun, hfault⟩

theorem name_of_find? (h : Table.find? name = some t) : t.name = name := by
  simpa using List.find?_some h

theorem result_insert_of_rejects {e : ScreenError} (h : db.Rejects name rows e) :
    (insert name rows).result db = (.error e, db) := by
  cases h with
  | unknownTable hname =>
    simp only [insert, hname]
    rfl
  | @row _ _ after _ _ hname hrows hbefore hrow =>
    obtain rfl := name_of_find? hname
    have hwrite := result_writeRows_of_refuses after hbefore hrow
    rw [← hrows] at hwrite
    simp only [insert, hname]
    exact Session.result_bind_of_error (Session.result_atomically_of_error hwrite)

theorem result_insert_of_accepts (hname : Table.find? name = some t)
    (h : ∀ row ∈ rows, t.Accepts (db.rows? name).isSome row) :
    (insert name rows).result db = (.ok rows.length, db.withRows t rows) := by
  obtain rfl := name_of_find? hname
  have hwrite := result_writeRows_of_accepts h
  simp only [insert, hname]
  rw [Session.result_bind_of_ok (Session.result_atomically_of_ok hwrite)]
  rfl

end Database

/-! ## The statements of a transaction -/

/-- What is saved, and what a transaction has made of it while it is open. -/
structure Transaction where
  saved : Database
  opened : Option Database := none

namespace Transaction

variable {α : Type}

def start : Session Transaction Unit := fun c => (pure (), { c with opened := some c.saved })

/-- A statement changes what the open transaction has; without one it changes what is saved. -/
def execute (x : Session Database α) : Session Transaction α := fun c =>
  match c.opened with
  | some db =>
    let (a, db) := x db
    (a, { c with opened := some db })
  | none =>
    let (a, db) := x c.saved
    (a, { c with saved := db })

def commit : Session Transaction Unit := fun c => (pure (), { saved := c.opened.getD c.saved })

def closing (x : Session Transaction α) : Session Transaction α := fun c =>
  let (a, c) := x c
  (a, { saved := c.saved })

def executeRows (t : Table) : List Row → Session Transaction Unit
  | [] => pure ()
  | row :: rows => do
    execute (Database.writeRow t row)
    executeRows t rows

def insert (name : String) (rows : List Row) : Session Transaction Nat :=
  match Table.find? name with
  | none => .fail (.store (.query s!"unknown table '{name}'"))
  | some t =>
    closing do
      start
      executeRows t rows
      commit
      pure rows.length

theorem result_execute (x : Session Database α) (db w : Database) :
    (execute x).result { saved := db, opened := some w } =
      ((x.result w).1, { saved := db, opened := some (x.result w).2 }) := rfl

theorem result_executeRows (t : Table) (rows : List Row) (db w : Database) :
    (executeRows t rows).result { saved := db, opened := some w } =
      (((Database.writeRows t rows).result w).1,
        { saved := db, opened := some ((Database.writeRows t rows).result w).2 }) := by
  induction rows generalizing w with
  | nil => rfl
  | cons row rows ih =>
    have hrow := result_execute (Database.writeRow t row) db w
    rcases hw : (Database.writeRow t row).result w with ⟨e | v, w'⟩
    · rw [hw] at hrow
      rw [executeRows, Session.result_bind_of_error hrow, Database.writeRows,
        Session.result_bind_of_error hw]
    · rw [hw] at hrow
      rw [executeRows, Session.result_bind_of_ok hrow, Database.writeRows,
        Session.result_bind_of_ok hw]
      exact ih w'

theorem result_closing {x : Session Transaction α} {r : Except ScreenError α} {c : Transaction}
    (c' : Transaction) (h : x.result c = (r, c')) :
    (closing x).result c = (r, { saved := c'.saved }) := by
  obtain ⟨hr, hs⟩ := Prod.mk.inj h
  simp only [Session.result, closing, hr, hs]

/-- The transaction saves what an insertion makes of the database. -/
theorem result_insert (name : String) (rows : List Row) (db : Database) :
    (insert name rows).result { saved := db } =
      (((Database.insert name rows).result db).1,
        { saved := ((Database.insert name rows).result db).2 }) := by
  unfold insert Database.insert
  cases Table.find? name with
  | none => rfl
  | some t =>
    have hstart : start.result { saved := db } = (.ok (), { saved := db, opened := some db }) := rfl
    have hrows := result_executeRows t rows db db
    rcases hw : (Database.writeRows t rows).result db with ⟨e | v, w⟩
    · -- What is saved is still what it was before the transaction.
      rw [Session.result_bind_of_error (Session.result_atomically_of_error hw)]
      apply result_closing { saved := db, opened := some w }
      rw [hw] at hrows
      rw [Session.result_bind_of_ok hstart, Session.result_bind_of_error hrows]
    · rw [Session.result_bind_of_ok (Session.result_atomically_of_ok hw)]
      apply result_closing { saved := w }
      rw [hw] at hrows
      rw [Session.result_bind_of_ok hstart, Session.result_bind_of_ok hrows]
      rfl

end Transaction

namespace Database

theorem result_insert_cases (name : String) (rows : List Row) (db : Database) :
    (∃ e, db.Rejects name rows e ∧ (insert name rows).result db = (.error e, db)) ∨
      ∃ t, Table.find? name = some t ∧
        (insert name rows).result db = (.ok rows.length, db.withRows t rows) := by
  cases hname : Table.find? name with
  | none =>
    have he : db.Rejects name rows _ := .unknownTable hname
    exact .inl ⟨_, he, result_insert_of_rejects he⟩
  | some t =>
    rcases accepts_or_refuses t (db.rows? name).isSome rows with
      hrows | ⟨before, row, after, fault, hrows, hbefore, hrow⟩
    · exact .inr ⟨t, rfl, result_insert_of_accepts hname hrows⟩
    · have he : db.Rejects name rows _ := .row hname hrows hbefore hrow
      exact .inl ⟨_, he, result_insert_of_rejects he⟩

/-- Rows are inserted all together or not at all. An insertion fails just when the table is unknown
or one of the rows is refused, at whatever place, and leaves the database as it was. Otherwise it
gives the number of the rows, and puts them into their table one after the other, and nothing into
any other table. It is what the statements of one transaction do, with a rollback if one of them
fails. -/
theorem insert_all_or_nothing (name : String) (rows : List Row) (db : Database) :
    let r := (insert name rows).result db
    (∀ e, r.1 = .error e ↔ db.Rejects name rows e) ∧ (∀ e, r.1 = .error e → r.2 = db) ∧
      (∀ n, r.1 = .ok n → n = rows.length ∧
        (∀ other, other ≠ name → r.2.rows? other = db.rows? other) ∧
        ∃ t, Table.find? name = some t ∧ r.2.rows? name = (db.rows? name).map fun old =>
          rows.foldl (fun kept row => t.put kept (t.keep row)) old) ∧
      (Transaction.insert name rows).result { saved := db } = (r.1, { saved := r.2 }) := by
  intro r
  have hrejects : ∀ e, db.Rejects name rows e → r.1 = .error e :=
    fun e he => congrArg Prod.fst (result_insert_of_rejects he)
  have htransaction := Transaction.result_insert name rows db
  obtain ⟨e, he, hr⟩ | ⟨t, hname, hr⟩ : (∃ e, db.Rejects name rows e ∧ r = (.error e, db)) ∨
      ∃ t, Table.find? name = some t ∧ r = (.ok rows.length, db.withRows t rows) :=
    result_insert_cases name rows db
  · refine ⟨fun e' => ⟨fun he' => ?_, hrejects e'⟩, fun _ _ => by rw [hr], fun n hn => ?_,
      htransaction⟩
    · rw [hr] at he'
      exact Except.error.inj he' ▸ he
    · rw [hr] at hn
      cases hn
  · refine ⟨fun e' => ⟨fun he' => ?_, hrejects e'⟩, fun e' he' => ?_, fun n hn => ?_,
      htransaction⟩
    · rw [hr] at he'
      cases he'
    · rw [hr] at he'
      cases he'
    · rw [hr] at hn ⊢
      obtain rfl := name_of_find? hname
      refine ⟨(Except.ok.inj hn).symm, ?_, t, hname, rows?_withRows⟩
      intro other hother
      exact rows?_withRows_of_ne hother

end Database

end StockScreen

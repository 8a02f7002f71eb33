import Mathlib.Data.List.Nodup
import StockScreen.Plan
import StockScreen.Proofs.Database.Keyed

/-! # Aliases of a plan

The aliases of one statement are distinct. An alias of a shifted table begins
with its offset and ends with a suffix for its kind, and the tables without a
time are joined under their own names, which begin with no digit.
-/

namespace StockScreen

namespace Timeframe

variable {tf : Timeframe}

theorem toList_aliasAt (tf : Timeframe) (offset : Nat) (kind : TableKind) :
    (tf.aliasAt offset kind).toList =
      Nat.toDigits 10 offset ++ (tf.aliasSuffix kind).toList := by
  simp [aliasAt]

theorem takeWhile_aliasAt (tf : Timeframe) (offset : Nat) (kind : TableKind) :
    (tf.aliasAt offset kind).toList.takeWhile Char.isDigit = Nat.toDigits 10 offset := by
  have hs : (tf.aliasSuffix kind).toList.takeWhile Char.isDigit = [] := by
    cases tf <;> cases kind <;> decide
  rw [toList_aliasAt, List.takeWhile_append_of_pos, hs, List.append_nil]
  intro c hc
  exact Nat.isDigit_of_mem_toDigits (by decide) (by decide) hc

theorem aliasAt_injective {offset offset' : Nat} {kind kind' : TableKind}
    (h : tf.aliasAt offset kind = tf.aliasAt offset' kind') :
    offset = offset' ∧ kind = kind' := by
  have hd : Nat.toDigits 10 offset = Nat.toDigits 10 offset' := by
    rw [← takeWhile_aliasAt tf offset kind, h, takeWhile_aliasAt]
  have ho : offset = offset' := by
    rw [← @Nat.ofDigitChars_ten_toDigits offset, hd, Nat.ofDigitChars_ten_toDigits]
  refine ⟨ho, ?_⟩
  have hs : (tf.aliasSuffix kind).toList = (tf.aliasSuffix kind').toList := by
    have hl := congrArg String.toList h
    rw [toList_aliasAt, toList_aliasAt, hd] at hl
    exact List.append_cancel_left hl
  revert hs
  cases tf <;> cases kind <;> cases kind' <;> decide

/-- No table has a name that begins with a digit. -/
theorem aliasAt_ne_name (tf : Timeframe) (offset : Nat) (kind : TableKind) {t : Table}
    (ht : t ∈ Table.all) : tf.aliasAt offset kind ≠ t.name := by
  have hfund : ∀ name ∈ Standard.fundamentalTables,
      name.toList.takeWhile Char.isDigit = [] := by
    decide
  have hdigits : t.name.toList.takeWhile Char.isDigit = [] := by
    rcases Table.mem_all.mp ht with ⟨tf, kind, rfl⟩ | ⟨name, hname, rfl⟩ | rfl
    · cases tf <;> cases kind <;> decide
    · exact hfund name hname
    · decide
  intro h
  rw [← h, takeWhile_aliasAt] at hdigits
  exact Nat.toDigits_ne_nil hdigits

theorem aliasAt_ne_fundamental (tf : Timeframe) (offset : Nat) (kind : TableKind) {name : String}
    (hname : name ∈ Standard.fundamentalTables) : tf.aliasAt offset kind ≠ name :=
  tf.aliasAt_ne_name offset kind (Table.mem_all.mpr (.inr (.inl ⟨name, hname, rfl⟩)))

end Timeframe

theorem Shift.le_total (a b : Shift) : Shift.le a b || Shift.le b a := by
  rcases a with ⟨m, _ | _⟩ <;> rcases b with ⟨n, _ | _⟩ <;>
    simp [Shift.le, TableKind.rank] <;> omega

theorem Shift.le_trans (a b c : Shift) (hab : Shift.le a b) (hbc : Shift.le b c) :
    Shift.le a c := by
  rcases a with ⟨m, _ | _⟩ <;> rcases b with ⟨n, _ | _⟩ <;> rcases c with ⟨k, _ | _⟩ <;>
    simp [Shift.le, TableKind.rank] at hab hbc ⊢ <;> omega

theorem Shift.le_antisymm (a b : Shift) (hab : Shift.le a b) (hba : Shift.le b a) : a = b := by
  rcases a with ⟨m, _ | _⟩ <;> rcases b with ⟨n, _ | _⟩ <;>
    simp [Shift.le, TableKind.rank] at hab hba ⊢ <;> omega

theorem nodup_referenced (cs : List Condition) : (referenced cs).Nodup :=
  nodup_arrange Shift.le Shift.le_trans Shift.le_total Shift.le_antisymm _

theorem mem_referenced {cs : List Condition} {s : Shift} :
    s ∈ referenced cs ↔ ∃ col ∈ cs.flatMap Condition.columns, col.shift? = some s := by
  rw [referenced, mem_arrange, List.mem_filterMap]

theorem mem_referencedTables {cs : List Condition} {name : String} :
    name ∈ referencedTables cs ↔
      ∃ col ∈ cs.flatMap Condition.columns, col.table? = some name := by
  rw [referencedTables, mem_ascending, List.mem_filterMap]

theorem nodup_referencedTables (cs : List Condition) : (referencedTables cs).Nodup :=
  nodup_ascending _

/-- A column of a timeframe that the standard tables have. -/
def ColumnRef.Standard (tf : Timeframe) (c : ColumnRef) : Prop :=
  c.timeframe = tf ∧
    ∃ entry ∈ (Standard.catalogs.timeframe tf).entries ++ Standard.catalogs.fundamentals.entries,
      entry.column = c.column ∧
        match c.target with
        | .shifted _ kind => entry.home = .timeframe kind
        | .table name => entry.home = .fundamental name

namespace Plan

variable {tf : Timeframe} {cs : List Condition} {w : Window} {allow : Option (List String)}

theorem shift_of_mem_joins {d : DatedShift} (h : d ∈ (make tf cs w allow).joins) :
    d.shift ∈ referenced cs ∧ w.dateAt? d.shift.offset = some d.date := by
  obtain ⟨s, hs, hd⟩ := List.mem_filterMap.mp h
  obtain ⟨date, hdate, rfl⟩ := Option.map_eq_some_iff.mp hd
  exact ⟨hs, hdate⟩

theorem mem_joins {s : Shift} {date : String} (hs : s ∈ referenced cs)
    (hdate : w.dateAt? s.offset = some date) : ⟨s, date⟩ ∈ (make tf cs w allow).joins :=
  List.mem_filterMap.mpr ⟨s, hs, by rw [hdate]; rfl⟩

theorem offset_pos_of_mem_referenced {s : Shift} (hs : s ∈ referenced cs) : 0 < s.offset := by
  obtain ⟨col, -, hcol⟩ := mem_referenced.mp hs
  unfold ColumnRef.shift? at hcol
  split at hcol
  · split at hcol
    · next h => cases hcol; exact h
    · cases hcol
  · cases hcol

theorem map_shift_joins :
    (make tf cs w allow).joins.map DatedShift.shift =
      (referenced cs).filter fun s => (w.dateAt? s.offset).isSome := by
  rw [make, List.map_filterMap, ← List.filterMap_eq_filter]
  congr 1
  funext s
  cases hdate : w.dateAt? s.offset <;> simp [Option.guard, hdate]

theorem nodup_shifts : ((make tf cs w allow).joins.map DatedShift.shift).Nodup :=
  map_shift_joins ▸ (nodup_referenced cs).filter _

theorem fundamental_of_standard {col : ColumnRef} {name : String} (h : col.Standard tf)
    (ht : col.target = .table name) : name ∈ Standard.fundamentalTables := by
  obtain ⟨-, entry, hentry, -, hhome⟩ := h
  rw [ht] at hhome
  rcases List.mem_append.mp hentry with hentry | hentry
  · have htf : Standard.catalogs.timeframe tf = Standard.timeframeCatalog tf := by
      cases tf <;> rfl
    rw [htf] at hentry
    rcases List.mem_append.mp hentry with hentry | hentry <;>
      obtain ⟨_, -, rfl⟩ := List.mem_map.mp hentry <;> cases hhome
  · obtain ⟨⟨_, _, table⟩, hmem, rfl⟩ := List.mem_map.mp hentry
    cases hhome
    exact List.mem_map_of_mem hmem

theorem fundamental_of_mem (hcs : ∀ c ∈ cs, ∀ col ∈ c.columns, col.Standard tf) {name : String}
    (h : name ∈ referencedTables cs) : name ∈ Standard.fundamentalTables := by
  obtain ⟨col, hcol, htable⟩ := mem_referencedTables.mp h
  obtain ⟨c, hc, hcol⟩ := List.mem_flatMap.mp hcol
  apply fundamental_of_standard (hcs c hc col hcol)
  unfold ColumnRef.table? at htable
  split at htable
  · next ht => cases htable; exact ht
  · cases htable

theorem table_of_standard (hcs : ∀ c ∈ cs, ∀ col ∈ c.columns, col.Standard tf) :
    ∀ name ∈ referencedTables cs, ∃ t ∈ Table.all, t.name = name := fun name h =>
  ⟨.fundamental name, Table.mem_all.mpr (.inr (.inl ⟨name, fundamental_of_mem hcs h, rfl⟩)), rfl⟩

def shifts (p : Plan) : List Shift := ⟨0, .raw⟩ :: ⟨0, .derived⟩ :: p.joins.map DatedShift.shift

theorem nodup_allShifts : (make tf cs w allow).shifts.Nodup := by
  have hpos : ∀ s ∈ (make tf cs w allow).joins.map DatedShift.shift, 0 < s.offset := by
    intro s hs
    obtain ⟨d, hd, rfl⟩ := List.mem_map.mp hs
    exact offset_pos_of_mem_referenced (shift_of_mem_joins hd).1
  refine List.nodup_cons.mpr ⟨?_, List.nodup_cons.mpr ⟨?_, nodup_shifts⟩⟩
  · intro h
    rcases List.mem_cons.mp h with h | h
    · cases h
    · exact Nat.lt_irrefl 0 (hpos _ h)
  · intro h
    exact Nat.lt_irrefl 0 (hpos _ h)

theorem aliases_eq (p : Plan) :
    p.anchorAlias :: p.query.joins.map Query.Join.aliasName =
      p.shifts.map p.shiftAlias ++ p.fundamentals := by
  simp [query, shifts, anchorJoin, shiftJoin, tableJoin, anchorAlias, derivedAlias, shiftAlias,
    Function.comp_def]

/-- The aliases of the anchor and of all joins are distinct. -/
theorem nodup_aliases (htables : ∀ name ∈ referencedTables cs, ∃ t ∈ Table.all, t.name = name) :
    let p := make tf cs w allow
    (p.anchorAlias :: p.query.joins.map Query.Join.aliasName).Nodup := by
  intro p
  rw [aliases_eq]
  refine List.nodup_append.mpr ⟨?_, nodup_referencedTables cs, ?_⟩
  · refine List.Nodup.map_on ?_ nodup_allShifts
    rintro ⟨offset, kind⟩ - ⟨offset', kind'⟩ - h
    obtain ⟨rfl, rfl⟩ := Timeframe.aliasAt_injective h
    rfl
  · rintro _ hs name hname rfl
    obtain ⟨s, -, hs⟩ := List.mem_map.mp hs
    obtain ⟨t, ht, htable⟩ := htables _ hname
    exact Timeframe.aliasAt_ne_name tf s.offset s.kind ht (hs.trans htable.symm)

end Plan

end StockScreen

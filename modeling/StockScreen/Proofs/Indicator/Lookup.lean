import Mathlib.Data.List.Nodup
import StockScreen.Indicator.Catalog
import StockScreen.Proofs.Lists
import StockScreen.Proofs.Text.Blank

/-! # Indicators and their names

A catalog takes the names of its entries as they are given, and looks a name up
without the blanks around it. An entry is found under the texts that are its
name with blanks around it, and one whose own name has blanks around it is
listed but never found.
-/

namespace StockScreen.Catalog

variable {scope text : String} {entries : List Indicator} {c : Catalog} {entry : Indicator}

theorem firstRepeated_eq_none_iff {seen xs : List String} :
    firstRepeated seen xs = none ↔ xs.Nodup ∧ ∀ x ∈ xs, x ∉ seen := by
  induction xs generalizing seen with
  | nil => simp [firstRepeated]
  | cons x xs ih =>
    rw [firstRepeated, List.nodup_cons, List.forall_mem_cons]
    split
    · next hseen => exact iff_of_false nofun fun h => h.2.1 hseen
    · next hseen =>
      rw [ih]
      simp only [List.mem_cons, not_or]
      constructor
      · rintro ⟨hnodup, hnew⟩
        exact ⟨⟨fun hx => (hnew x hx).1 rfl, hnodup⟩, hseen, fun y hy => (hnew y hy).2⟩
      · rintro ⟨⟨hx, hnodup⟩, -, hnew⟩
        refine ⟨hnodup, fun y hy => ⟨?_, hnew y hy⟩⟩
        rintro rfl
        exact hx hy

/-- A list of entries is a catalog when no name occurs twice in it, as the names are given. -/
theorem ofEntries_eq_ok_iff :
    ofEntries scope entries = .ok c ↔
      (entries.map Indicator.name).Nodup ∧ c = ⟨scope, entries⟩ := by
  have hnodup : firstRepeated [] (entries.map Indicator.name) = none ↔
      (entries.map Indicator.name).Nodup ∧ ∀ name ∈ entries.map Indicator.name, name ∉ [] :=
    firstRepeated_eq_none_iff
  unfold ofEntries
  cases hrep : firstRepeated [] (entries.map Indicator.name) with
  | none =>
    rw [hrep] at hnodup
    simp only [Except.ok.injEq, (hnodup.mp rfl).1, true_and, eq_comm]
  | some name =>
    refine iff_of_false nofun fun h => ?_
    rw [hrep] at hnodup
    cases hnodup.mpr ⟨h.1, fun _ _ => List.not_mem_nil⟩

theorem find?_eq_some_iff (h : (entries.map Indicator.name).Nodup) :
    find? ⟨scope, entries⟩ text = some entry ↔ entry ∈ entries ∧ entry.name = Text.trim text := by
  unfold find?
  constructor
  · intro hfind
    exact ⟨List.mem_of_find?_eq_some hfind, by simpa using List.find?_some hfind⟩
  · rintro ⟨hentry, hname⟩
    rw [← hname]
    exact find?_key hentry fun other hother => List.inj_on_of_nodup_map h hother hentry

theorem lookup_eq_ok_iff : c.lookup text = .ok entry ↔ c.find? text = some entry := by
  unfold lookup
  cases c.find? text <;> simp

theorem lookup_eq_error_iff {e : ScreenError} : c.lookup text = .error e ↔
    (∀ entry ∈ c.entries, entry.name ≠ Text.trim text) ∧ e = .unknownIndicator c.scope text := by
  have hnone : c.find? text = none ↔ ∀ entry ∈ c.entries, entry.name ≠ Text.trim text := by
    simp only [find?, List.find?_eq_none, beq_iff_eq, ne_eq]
  unfold lookup
  rw [← hnone]
  cases c.find? text <;> simp [eq_comm]

structure FindsTrimmed (c : Catalog) (scope : String) (entries : List Indicator) : Prop where
  listed : c.names = entries.map Indicator.name
  distinct : (entries.map Indicator.name).Nodup
  found : ∀ text entry,
    c.lookup text = .ok entry ↔ entry ∈ entries ∧ entry.name = Text.trim text
  unknown : ∀ text e, c.lookup text = .error e ↔
    (∀ entry ∈ entries, entry.name ≠ Text.trim text) ∧ e = .unknownIndicator scope text
  byName : ∀ entry ∈ entries, c.lookup entry.name = .ok entry ↔ Text.trim entry.name = entry.name
  reachable : ∀ entry ∈ entries,
    (∃ text, c.lookup text = .ok entry) ↔ Text.trim entry.name = entry.name

/-- Of a list that is accepted as a catalog, each entry is found under the texts that are its name
up to the blanks around them, and no text leads elsewhere. The entries that can be found at all are
those whose names have no blanks around them. -/
theorem lookup_finds_trimmed (h : ofEntries scope entries = .ok c) :
    c.FindsTrimmed scope entries := by
  obtain ⟨hnodup, rfl⟩ := ofEntries_eq_ok_iff.mp h
  have hfound : ∀ text entry, lookup ⟨scope, entries⟩ text = .ok entry ↔
      entry ∈ entries ∧ entry.name = Text.trim text :=
    fun text entry => lookup_eq_ok_iff.trans (find?_eq_some_iff hnodup)
  exact
    { listed := rfl
      distinct := hnodup
      found := hfound
      unknown := fun _ _ => lookup_eq_error_iff
      byName := fun entry hentry => by
        rw [hfound, and_iff_right hentry, eq_comm]
      reachable := fun entry hentry => by
        simp only [hfound, and_iff_right hentry]
        constructor
        · rintro ⟨text, hname⟩
          rw [hname, Text.trim_trim]
        · intro hname
          exact ⟨entry.name, hname.symm⟩ }

def paddedEntries : List Indicator :=
  [⟨" close ", "c", .timeframe .raw⟩, ⟨"close", "d", .timeframe .derived⟩]

theorem padded_finds_trimmed :
    ofEntries "fixture" paddedEntries = .ok ⟨"fixture", paddedEntries⟩ ∧
      lookup ⟨"fixture", paddedEntries⟩ " close " = .ok ⟨"close", "d", .timeframe .derived⟩ := by
  have hentries : ofEntries "fixture" paddedEntries = .ok ⟨"fixture", paddedEntries⟩ :=
    ofEntries_eq_ok_iff.mpr ⟨by decide, rfl⟩
  have hfound := (lookup_finds_trimmed hentries).found " close " ⟨"close", "d", .timeframe .derived⟩
  exact ⟨hentries, hfound.mpr ⟨by simp [paddedEntries], by decide +kernel⟩⟩

/-- A name that is listed and is the name of no entry that can be found. -/
theorem padded_name_is_not_found :
    let entry : Indicator := ⟨" close ", "c", .timeframe .raw⟩
    ∃ c, ofEntries "fixture" [entry] = .ok c ∧ entry.name ∈ c.names ∧
      c.lookup entry.name = .error (.unknownIndicator "fixture" " close ") := by
  intro entry
  refine ⟨⟨"fixture", [entry]⟩, rfl, List.mem_singleton_self _, lookup_eq_error_iff.mpr ⟨?_, rfl⟩⟩
  intro other hother
  rw [List.mem_singleton.mp hother]
  decide +kernel

end StockScreen.Catalog

import StockScreen.Proofs.Calendar
import StockScreen.Proofs.Config.Ini
import StockScreen.Proofs.Config.Integers
import StockScreen.Proofs.Text.Utf8

/-! # Settings that are read back

Settings within their bounds are written as a section with a line for each of
their fields. Whatever the order of the lines, the section is read as these
settings. Settings that are read from any configuration are within the bounds.
-/

namespace StockScreen.Config

def IntegerKey.greatest : IntegerKey → Int
  | .dailyWindow => 64
  | _ => 0x7FFFFFFFFFFFFFFF

structure InBounds (s : Settings) : Prop where
  integers : ∀ k : IntegerKey, 1 ≤ k.value s ∧ k.value s ≤ k.greatest
  ordered : s.weeklyCount ≤ s.weeklyLookback

variable {cs : List Char} {n : Int} {ini : Ini} {s : Settings}

theorem IntegerKey.le_greatest_iff {k : IntegerKey} :
    1 ≤ n ∧ n ≤ k.greatest ↔ k.Allows n ∧ Decimal.FitsInt64 n := by
  unfold Allows Decimal.FitsInt64
  cases k <;> simp [greatest] <;> omega

/-! ## The section of settings -/

def policyWord : OperatorPolicy → String
  | .strict => "false"
  | .fallback => "true"

def entries (s : Settings) : List (String × String) :=
  (IntegerKey.all.map fun k => (k.name, Decimal.integerText (k.value s))) ++
    [("hourly_cutoff", s.cutoff.text), ("operator_fallback", policyWord s.policy)]

theorem isWord_of_spells (h : Decimal.Spells cs n) : IsWord cs := by
  have hdigits : ∀ {ds : List Char} {m : Nat}, Decimal.IsNumeral ds m → ∀ d ∈ ds, isPlain d :=
    fun hds d hd => isPlain_of_isDigit (hds.digits d hd)
  cases h with
  | unsigned hds => exact ⟨hds.ne_nil, hdigits hds⟩
  | plus hds => exact ⟨nofun, List.forall_mem_cons.mpr ⟨by decide, hdigits hds⟩⟩
  | minus hds => exact ⟨nofun, List.forall_mem_cons.mpr ⟨by decide, hdigits hds⟩⟩

theorem isPlain_twoDigits {n : Nat} (h : n < 100) : (Calendar.twoDigits n).all isPlain := by
  revert n
  decide +kernel

theorem isWord_text (t : Calendar.Clock) : IsWord t.text.toList := by
  have htwo : ∀ {n : Nat}, n < 61 → ∀ c ∈ Calendar.twoDigits n, isPlain c :=
    fun h => List.all_eq_true.mp (isPlain_twoDigits (by omega))
  rw [Calendar.Clock.text, String.toList_ofList]
  refine ⟨List.cons_ne_nil _ _, ?_⟩
  simp only [List.forall_mem_append, List.forall_mem_cons]
  exact ⟨⟨htwo (by omega), by decide, htwo (by omega)⟩, by decide, htwo (by omega)⟩

theorem isWord_policyWord (p : OperatorPolicy) : IsWord (policyWord p).toList := by
  cases p <;> exact ⟨by decide, List.all_eq_true.mp rfl⟩

theorem isName_screenSection : IsName screenSection.toList := ⟨by decide, List.all_eq_true.mp rfl⟩

theorem IntegerKey.isName (k : IntegerKey) : IsName k.name.toList := by
  cases k <;> exact ⟨by decide, List.all_eq_true.mp rfl⟩

theorem writable_entries (s : Settings) : ∀ e ∈ entries s, Writable e := by
  have hcutoff : IsName "hourly_cutoff".toList := ⟨by decide, List.all_eq_true.mp rfl⟩
  have hpolicy : IsName "operator_fallback".toList := ⟨by decide, List.all_eq_true.mp rfl⟩
  rw [entries, List.forall_mem_append, List.forall_mem_map, List.forall_mem_cons,
    List.forall_mem_singleton]
  exact ⟨fun k _ => ⟨k.isName, isWord_of_spells (Decimal.spells_integerText _)⟩,
    ⟨hcutoff, isWord_text _⟩, ⟨hpolicy, isWord_policyWord _⟩⟩

theorem nodup_entries (s : Settings) : ((entries s).map Prod.fst).Nodup := by
  have hkeys : (entries s).map Prod.fst =
      IntegerKey.all.map IntegerKey.name ++ ["hourly_cutoff", "operator_fallback"] := rfl
  rw [hkeys]
  decide

theorem loads_of_get? (hs : InBounds s)
    (h : ∀ e ∈ entries s, ini.get? screenSection e.1 = some e.2) : Loads ini s := by
  have hbounds : ∀ k : IntegerKey, k.Allows (k.value s) ∧ Decimal.FitsInt64 (k.value s) :=
    fun k => IntegerKey.le_greatest_iff.mp (hs.integers k)
  rw [entries, List.forall_mem_append, List.forall_mem_map, List.forall_mem_cons,
    List.forall_mem_singleton] at h
  obtain ⟨hintegers, hcutoff, hpolicy⟩ := h
  have hread : ∀ k : IntegerKey, k.read ini = k.value s := fun k =>
    IntegerKey.read_of_fits (hintegers k (by cases k <;> decide)) (Decimal.spells_integerText _)
      (hbounds k).2
  have htrim : Text.trim s.cutoff.text = s.cutoff.text := by
    rw [Text.trim, (isWord_text _).trimmed.trimChars_eq, String.ofList_toList]
  exact
    { allowed := fun k => (hread k).symm ▸ (hbounds k).1
      held := fun k => (hread k).symm
      cutoff := by simp only [Config.cutoff, hcutoff, htrim, Calendar.Clock.read?_text]
      ordered := hs.ordered
      policy := by
        rw [Config.policy, Ini.getBool, hpolicy]
        cases s.policy <;> rfl }

theorem settings_of_lines (hs : InBounds s) {lines : List (String × String)}
    (hperm : lines.Perm (entries s)) :
    ∃ ini, readIni (sectionText screenSection lines) = .ok ini ∧ settings ini = .ok s := by
  have hwritable : ∀ e ∈ lines, Writable e := fun e he =>
    writable_entries s e (hperm.mem_iff.mp he)
  have hkeys : (lines.map Prod.fst).Nodup :=
    (hperm.map Prod.fst).nodup_iff.mpr (nodup_entries s)
  refine ⟨sectionEntries screenSection lines, readIni_sectionText isName_screenSection hwritable,
    settings_eq_ok_iff.mpr (loads_of_get? hs fun e he => ?_)⟩
  exact get?_sectionEntries isName_screenSection hwritable hkeys (hperm.mem_iff.mpr he)

theorem inBounds_of_settings (h : settings ini = .ok s) : InBounds s := by
  have hloads := settings_eq_ok_iff.mp h
  refine ⟨fun k => ?_, hloads.ordered⟩
  rw [hloads.held]
  exact IntegerKey.le_greatest_iff.mpr ⟨hloads.allowed k, k.fitsInt64_read ini⟩

/-- Settings within their bounds are read back from a text or a file with the lines of their fields
in any order, and settings that are read from any configuration are within the bounds. -/
theorem settings_round_trip :
    (∀ s : Settings, InBounds s → ∀ lines : List (String × String), lines.Perm (entries s) →
      ∃ ini, ofText (sectionText screenSection lines) = .ok ini ∧
        (∀ file, ofFile file (.ok (Utf8.encode (sectionText screenSection lines).toList)) =
          .ok ini) ∧
        settings ini = .ok s) ∧
    ∀ ini s, settings ini = .ok s → InBounds s := by
  refine ⟨fun s hs lines hperm => ?_, fun ini s => inBounds_of_settings⟩
  obtain ⟨ini, hread, hsettings⟩ := settings_of_lines hs hperm
  refine ⟨ini, ?_, fun file => ?_, hsettings⟩
  · rw [ofText, hread]
    rfl
  · simp only [ofFile, readText_encode, String.ofList_toList, hread]
    rfl

/-- The greatest settings, in a text that begins with the last of their fields. -/
theorem greatest_settings_are_read_back :
    ∃ ini, ofText ("[screen]\noperator_fallback = true\nhourly_cutoff = 23:59:60\n" ++
        "weekly_min_gap_days = 9223372036854775807\nweekly_count = 9223372036854775807\n" ++
        "weekly_lookback = 9223372036854775807\nhourly_lookback = 9223372036854775807\n" ++
        "daily_window = 64\n") = .ok ini ∧
      settings ini = .ok ⟨64, ⟨23, 59, 60⟩, 9223372036854775807, 9223372036854775807,
        9223372036854775807, 9223372036854775807, .fallback⟩ := by
  let s : Settings := ⟨64, ⟨23, 59, 60⟩, 9223372036854775807, 9223372036854775807,
    9223372036854775807, 9223372036854775807, .fallback⟩
  have hs : InBounds s := ⟨fun k => by cases k <;> decide, Nat.le_refl _⟩
  obtain ⟨ini, hread, -, hsettings⟩ :=
    settings_round_trip.1 s hs (entries s).reverse (List.reverse_perm _)
  refine ⟨ini, ?_, hsettings⟩
  rw [← hread]
  exact congrArg ofText (by decide +kernel)

end StockScreen.Config

import StockScreen.Config.Load
import StockScreen.Proofs.Decimal.Integer
import StockScreen.Proofs.Lists

/-! # Integers among the settings

Five keys of a configuration hold integers, each with its bounds. An integer of
64 bits that is given is held or the settings are refused. One of more digits
counts as not given, so that its key has the default.
-/

namespace StockScreen.Config

inductive IntegerKey | dailyWindow | hourlyLookback | weeklyLookback | weeklyCount | weeklyGap
  deriving DecidableEq, Repr

namespace IntegerKey

def all : List IntegerKey := [dailyWindow, hourlyLookback, weeklyLookback, weeklyCount, weeklyGap]

def name : IntegerKey → String
  | dailyWindow => "daily_window"
  | hourlyLookback => "hourly_lookback"
  | weeklyLookback => "weekly_lookback"
  | weeklyCount => "weekly_count"
  | weeklyGap => "weekly_min_gap_days"

def value (s : Settings) : IntegerKey → Int
  | dailyWindow => s.dailyWindow
  | hourlyLookback => s.hourlyLookback
  | weeklyLookback => s.weeklyLookback
  | weeklyCount => s.weeklyCount
  | weeklyGap => s.weeklyGap

def default (k : IntegerKey) : Int := k.value {}

def Allows (k : IntegerKey) (n : Int) : Prop := 1 ≤ n ∧ (k = dailyWindow → n ≤ 64)

def read (k : IntegerKey) (ini : Ini) : Int := ini.getInt screenSection k.name k.default

variable {k : IntegerKey} {ini : Ini} {literal : String} {n : Int}

theorem read_of_fits (hget : ini.get? screenSection k.name = some literal)
    (hn : Decimal.Spells literal.toList n) (hfits : Decimal.FitsInt64 n) : k.read ini = n := by
  rw [read, Ini.getInt, hget, Option.bind_some, Decimal.readInt64?_eq_some_iff.mpr ⟨hn, hfits⟩,
    Option.getD_some]

theorem read_of_not_fits (hget : ini.get? screenSection k.name = some literal)
    (hn : Decimal.Spells literal.toList n) (hfits : ¬ Decimal.FitsInt64 n) :
    k.read ini = k.default := by
  rw [read, Ini.getInt, hget, Option.bind_some, Decimal.readInt64?_eq_none hn hfits,
    Option.getD_none]

theorem fitsInt64_default (k : IntegerKey) : Decimal.FitsInt64 k.default := by
  unfold Decimal.FitsInt64
  cases k <;> decide

theorem fitsInt64_read (k : IntegerKey) (ini : Ini) : Decimal.FitsInt64 (k.read ini) := by
  rw [read, Ini.getInt]
  cases hread : (ini.get? screenSection k.name).bind Decimal.readInt64? with
  | none => exact k.fitsInt64_default
  | some n =>
    obtain ⟨literal, -, hn⟩ := Option.bind_eq_some_iff.mp hread
    exact (Decimal.readInt64?_eq_some_iff.mp hn).2

end IntegerKey

variable {α β : Type} {ini : Ini} {s : Settings} {key : String} {default n : Nat}

theorem positive_eq_ok_iff : positive ini key default = .ok n ↔
    1 ≤ ini.getInt screenSection key default ∧ n = ini.getInt screenSection key default := by
  simp only [positive]
  split
  · next h => exact iff_of_false nofun fun ⟨hle, _⟩ => absurd h (by omega)
  · next h => rw [Except.ok.injEq]; omega

theorem bounded_eq_ok_iff {greatest : Int} : bounded ini key default greatest = .ok n ↔
    (1 ≤ ini.getInt screenSection key default ∧
      ini.getInt screenSection key default ≤ greatest) ∧
      n = ini.getInt screenSection key default := by
  simp only [bounded]
  split
  · next h => rw [Except.ok.injEq]; omega
  · next h => exact iff_of_false nofun fun hn => h hn.1

structure Loads (ini : Ini) (s : Settings) : Prop where
  allowed : ∀ k : IntegerKey, k.Allows (k.read ini)
  held : ∀ k : IntegerKey, k.value s = k.read ini
  cutoff : Config.cutoff ini Settings.defaultCutoff = .ok s.cutoff
  ordered : s.weeklyCount ≤ s.weeklyLookback
  policy : s.policy = Config.policy ini

theorem settings_eq_ok_iff : settings ini = .ok s ↔ Loads ini s := by
  unfold settings
  simp only [bind_eq_ok_iff, positive_eq_ok_iff, bounded_eq_ok_iff]
  constructor
  · rintro ⟨dailyWindow, ⟨hdaily, hdailyWindow⟩, cutoff, hcutoff, hourlyLookback,
      ⟨hhourly, hhourlyLookback⟩, weeklyLookback, ⟨hlookback, hweeklyLookback⟩, weeklyCount,
      ⟨hcount, hweeklyCount⟩, weeklyGap, ⟨hgap, hweeklyGap⟩, h⟩
    split at h
    · cases h
    · next hordered =>
      cases h
      refine ⟨?_, ?_, hcutoff, Nat.le_of_not_lt hordered, rfl⟩
      · intro k
        cases k
        · exact ⟨hdaily.1, fun _ => hdaily.2⟩
        · exact ⟨hhourly, nofun⟩
        · exact ⟨hlookback, nofun⟩
        · exact ⟨hcount, nofun⟩
        · exact ⟨hgap, nofun⟩
      · intro k
        cases k <;> assumption
  · intro h
    have hgap : (s.weeklyGap.toNat : Int) = IntegerKey.weeklyGap.read ini := by
      have hheld : s.weeklyGap = _ := h.held .weeklyGap
      have hallowed := (h.allowed .weeklyGap).1
      omega
    refine ⟨s.dailyWindow, ⟨⟨(h.allowed .dailyWindow).1, (h.allowed .dailyWindow).2 rfl⟩,
      h.held .dailyWindow⟩, s.cutoff, h.cutoff, s.hourlyLookback,
      ⟨(h.allowed .hourlyLookback).1, h.held .hourlyLookback⟩, s.weeklyLookback,
      ⟨(h.allowed .weeklyLookback).1, h.held .weeklyLookback⟩, s.weeklyCount,
      ⟨(h.allowed .weeklyCount).1, h.held .weeklyCount⟩, s.weeklyGap.toNat,
      ⟨(h.allowed .weeklyGap).1, hgap⟩, ?_⟩
    rw [if_neg (Nat.not_lt.mpr h.ordered), hgap, ← h.held .weeklyGap, ← h.policy]
    rfl

/-! ## Settings that are refused -/

def FailsInvalid (x : Except ScreenError α) : Prop :=
  ∀ e, x = .error e → ∃ key reason, e = .configInvalid screenSection key reason

theorem FailsInvalid.ok (v : α) : FailsInvalid (.ok v) := nofun

theorem FailsInvalid.error (key reason : String) :
    FailsInvalid (.error (invalid key reason) : Except ScreenError α) := by
  rintro _ ⟨⟩
  exact ⟨key, reason, rfl⟩

theorem FailsInvalid.bind {x : Except ScreenError α} {f : α → Except ScreenError β}
    (h : FailsInvalid x) (hf : ∀ v, FailsInvalid (f v)) : FailsInvalid (x >>= f) := by
  cases x with
  | error e =>
    rintro _ ⟨⟩
    exact h e rfl
  | ok v => exact hf v

theorem failsInvalid_positive : FailsInvalid (positive ini key default) := by
  simp only [positive]
  split
  · exact .error _ _
  · exact .ok _

theorem failsInvalid_bounded {greatest : Int} :
    FailsInvalid (bounded ini key default greatest) := by
  simp only [bounded]
  split
  · exact .ok _
  · exact .error _ _

theorem failsInvalid_cutoff {t : Calendar.Clock} : FailsInvalid (cutoff ini t) := by
  unfold cutoff
  split
  · exact .ok _
  · split
    · exact .ok _
    · exact .error _ _

theorem failsInvalid_settings : FailsInvalid (settings ini) := by
  unfold settings
  refine failsInvalid_bounded.bind fun _ => failsInvalid_cutoff.bind fun _ =>
    failsInvalid_positive.bind fun _ => failsInvalid_positive.bind fun _ =>
    failsInvalid_positive.bind fun _ => failsInvalid_positive.bind fun _ => ?_
  split
  · exact .error _ _
  · exact .ok _

/-- What becomes of an integer that is given under a key. -/
structure TreatsInteger (ini : Ini) (k : IntegerKey) (n : Int) : Prop where
  held : Decimal.FitsInt64 n → ∀ s, settings ini = .ok s → k.value s = n
  refused : Decimal.FitsInt64 n → ¬ k.Allows n →
    ∃ key reason, settings ini = .error (.configInvalid screenSection key reason)
  replaced : ¬ Decimal.FitsInt64 n → ∀ s, settings ini = .ok s → k.value s = k.default
  outcome : (∃ s, settings ini = .ok s) ∨
    ∃ key reason, settings ini = .error (.configInvalid screenSection key reason)

/-- Settings hold the integers of 64 bits that are given, and are refused when one is out of its
bounds. Instead of an integer of more than 64 bits they hold the default. -/
theorem given_integer_is_held {k : IntegerKey} {literal : String} {n : Int}
    (hget : ini.get? screenSection k.name = some literal)
    (hn : Decimal.Spells literal.toList n) : TreatsInteger ini k n := by
  have houtcome : (∃ s, settings ini = .ok s) ∨
      ∃ key reason, settings ini = .error (.configInvalid screenSection key reason) := by
    cases hs : settings ini with
    | ok s => exact .inl ⟨s, rfl⟩
    | error e =>
      obtain ⟨key, reason, rfl⟩ := failsInvalid_settings e hs
      exact .inr ⟨key, reason, rfl⟩
  exact
    { held := fun hfits s hs => by
        rw [(settings_eq_ok_iff.mp hs).held, IntegerKey.read_of_fits hget hn hfits]
      refused := fun hfits hout => by
        refine houtcome.resolve_left fun ⟨s, hs⟩ => hout ?_
        rw [← IntegerKey.read_of_fits hget hn hfits]
        exact (settings_eq_ok_iff.mp hs).allowed k
      replaced := fun hfits s hs => by
        rw [(settings_eq_ok_iff.mp hs).held, IntegerKey.read_of_not_fits hget hn hfits]
      outcome := houtcome }

theorem signed_count_is_held :
    let ini : Ini := [⟨"screen", "weekly_count", some "+007"⟩]
    ini.get? screenSection IntegerKey.weeklyCount.name = some "+007" ∧
      Decimal.Spells "+007".toList 7 ∧
      ∀ s, settings ini = .ok s → IntegerKey.weeklyCount.value s = 7 := by
  intro ini
  have hget : ini.get? screenSection IntegerKey.weeklyCount.name = some "+007" := by
    decide +kernel
  have hn : Decimal.Spells "+007".toList 7 := Decimal.readInt?_eq_some_iff.mp (by decide +kernel)
  exact ⟨hget, hn, (given_integer_is_held hget hn).held (by unfold Decimal.FitsInt64; decide)⟩

/-- A window that is far out of its bounds has the default size. -/
theorem large_integer_is_replaced :
    ∃ ini s, ofText "[screen]\ndaily_window = 99999999999999999999\n" = .ok ini ∧
      ini.get? screenSection IntegerKey.dailyWindow.name = some "99999999999999999999" ∧
      Decimal.Spells "99999999999999999999".toList 99999999999999999999 ∧
      ¬ IntegerKey.dailyWindow.Allows 99999999999999999999 ∧
      settings ini = .ok s ∧ s.dailyWindow = 6 := by
  refine ⟨[⟨"screen", "daily_window", some "99999999999999999999"⟩], {}, ?_, ?_, ?_, ?_, ?_, rfl⟩
  · rfl
  · rfl
  · exact Decimal.readInt?_eq_some_iff.mp (by decide +kernel)
  · exact fun h => absurd (h.2 rfl) (by decide)
  · rfl

end StockScreen.Config

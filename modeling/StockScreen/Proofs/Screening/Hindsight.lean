import Mathlib.Data.List.Sort
import Mathlib.Data.String.Basic
import StockScreen.Screening.Screener

/-! # Screens without hindsight

What a screen asks and finds at an anchor does not depend on the trading dates
after the anchor.
-/

namespace StockScreen

/-- Two descending feeds with the same dates up to a last one. -/
structure SameUpTo (last : String) (feed feed' : List String) : Prop where
  descending : feed.Pairwise (· > ·)
  descending' : feed'.Pairwise (· > ·)
  same : ∀ date ≤ last, date ∈ feed ↔ date ∈ feed'

theorem dropWhile_eq_filter {feed : List String} (h : feed.Pairwise (· > ·)) (anchor : String) :
    feed.dropWhile (fun date => decide (anchor < date)) =
      feed.filter fun date => decide (date ≤ anchor) := by
  induction feed with
  | nil => rfl
  | cons d feed ih =>
    obtain ⟨hd, hfeed⟩ := List.pairwise_cons.mp h
    by_cases hlt : anchor < d
    · rw [List.dropWhile_cons_of_pos (by simpa using hlt), ih hfeed,
        List.filter_cons_of_neg (by simpa using hlt)]
    · have hall : ∀ d' ∈ d :: feed, decide (d' ≤ anchor) = true := by
        intro d' hd'
        rcases List.mem_cons.mp hd' with rfl | hd'
        · exact decide_eq_true (not_lt.mp hlt)
        · exact decide_eq_true ((le_of_lt (hd d' hd')).trans (not_lt.mp hlt))
      rw [List.dropWhile_cons_of_neg (by simpa using hlt), List.filter_eq_self.mpr hall]

variable {last : String} {feed feed' : List String}

theorem SameUpTo.filter_eq (h : SameUpTo last feed feed') {p : String → Bool}
    (hp : ∀ date, p date → date ≤ last) : feed.filter p = feed'.filter p := by
  refine (h.descending.filter p).eq_of_mem_iff (h.descending'.filter p) fun date => ?_
  simp only [List.mem_filter]
  constructor
  · rintro ⟨hmem, hdate⟩
    exact ⟨(h.same date (hp date hdate)).mp hmem, hdate⟩
  · rintro ⟨hmem, hdate⟩
    exact ⟨(h.same date (hp date hdate)).mpr hmem, hdate⟩

theorem SameUpTo.daily_eq (h : SameUpTo last feed feed') {anchor : String} (ha : anchor ≤ last)
    (size : Nat) : Window.daily feed anchor size = Window.daily feed' anchor size := by
  rw [Window.daily, Window.daily, dropWhile_eq_filter h.descending,
    dropWhile_eq_filter h.descending',
    h.filter_eq fun date hdate => (of_decide_eq_true hdate).trans ha]

namespace Screener

variable {σ : Type} (sc : Screener σ)

def withFeed (feed : List String) : Screener σ := { sc with feed := feed }

variable {sc}

theorem compileActive_withFeed (rule : Rule) (tfs : List Timeframe) :
    (sc.withFeed feed).compileActive rule tfs = sc.compileActive rule tfs := by
  induction tfs with
  | nil => rfl
  | cons tf tfs ih => rw [compileActive, compileActive, ih]; rfl

theorem compile_withFeed (rule : Rule) : (sc.withFeed feed).compile rule = sc.compile rule := by
  rw [compile, compile, compileActive_withFeed]

variable {anchor : String} (h : SameUpTo last sc.feed feed) (ha : anchor ≤ last)
include h ha

theorem resolve_withFeed (tf : Timeframe) :
    (sc.withFeed feed).resolve tf anchor = sc.resolve tf anchor := by
  have hfind : (sc.withFeed feed).findWindow anchor tf = sc.findWindow anchor tf := by
    cases tf with
    | daily => exact congrArg pure (h.daily_eq ha sc.settings.dailyWindow).symm
    | hourly => rfl
    | weekly => rfl
  rw [resolve, resolve, hfind]

theorem sharedWindow_withFeed (tf : Timeframe) :
    (sc.withFeed feed).sharedWindow tf anchor = sc.sharedWindow tf anchor := by
  unfold sharedWindow
  rw [resolve_withFeed h ha]

theorem planCompiled_withFeed (allow : Option (List String)) (cs : List Compiled) :
    (sc.withFeed feed).planCompiled anchor allow cs = sc.planCompiled anchor allow cs := by
  induction cs with
  | nil => rfl
  | cons c cs ih => rw [planCompiled, planCompiled, sharedWindow_withFeed h ha, ih]

theorem idsWith_withFeed (rule : Rule) (allow : Option (List String)) :
    (sc.withFeed feed).idsWith rule anchor allow = sc.idsWith rule anchor allow := by
  rw [idsWith, idsWith, plansWith, plansWith, compile_withFeed]
  simp only [planCompiled_withFeed h ha]
  rfl

end Screener

end StockScreen

import StockScreen.Proofs.Backtest.Requests
import StockScreen.Proofs.Ordered
import StockScreen.Proofs.Screening.Fresh
import StockScreen.Proofs.Screening.Hindsight
import StockScreen.Proofs.Screening.Weeks

/-! # Plans within bounds

A store that is asked for times up to a bound may be trusted to keep to it.
Then no plan refers to a date after its anchor, or to an hour after the cutoff
of that day.
-/

namespace StockScreen

/-- Times that are asked for up to a bound do not lie after it. -/
structure DataStore.KeepsBounds {σ : Type} (store : DataStore σ) : Prop where
  hourly : ∀ bound limit s rows, (store.answer (.hourlyTimes bound limit) s).1 = .ok rows →
    ∀ row ∈ rows, ∀ time, Row.text? row "ts" = some time → time ≤ bound
  weekly : ∀ bound limit s rows, (store.answer (.weeklyDates bound limit) s).1 = .ok rows →
    ∀ row ∈ rows, ∀ date, Row.text? row "t" = some date → date ≤ bound

theorem DataStore.KeepsBounds.recorded {σ : Type} {store : DataStore σ} (h : store.KeepsBounds) :
    store.recorded.KeepsBounds where
  hourly bound limit s := h.hourly bound limit s.1
  weekly bound limit s := h.weekly bound limit s.1

def Window.Within (bound : String) (w : Window) : Prop := ∀ date ∈ w.dates, date ≤ bound

/-- No date of a plan lies after the bound of its timeframe. -/
structure Plan.Within (bound : Timeframe → String) (p : Plan) : Prop where
  anchor : ∀ date, p.anchorDate = some date → date ≤ bound p.timeframe
  joins : ∀ j ∈ p.joins, j.date ≤ bound p.timeframe

section

variable {bound : Timeframe → String} {dates : List String} {limit : String}

theorem Window.within_ofDates (h : ∀ date ∈ dates, date ≤ limit) :
    (Window.ofDates dates).Within limit :=
  fun date hdate => h date ((mem_arrange _ dates).mp hdate)

theorem Plan.MadeFrom.within {p : Plan} (h : p.MadeFrom fun tf w => w.Within (bound tf)) :
    p.Within bound := by
  obtain ⟨tf, cs, w, allow, hw, rfl⟩ := h
  constructor
  · intro date hdate
    exact hw date (List.mem_of_getElem? hdate)
  · intro j hj
    obtain ⟨s, -, hs⟩ := List.mem_filterMap.mp hj
    obtain ⟨date, hdate, rfl⟩ := Option.map_eq_some_iff.mp hs
    exact hw date (List.mem_of_getElem? hdate)

theorem Weeks.mem_of_mem_kept {gap : Int} {last : Option Calendar.Date} {count : Nat}
    {candidates : List String} {date : String}
    (h : date ∈ (Weeks.pickAfter gap last count candidates).kept) : date ∈ candidates :=
  List.filter_sublist.subset ((sublist_pickAfter gap last count candidates).subset h)

end

namespace DataStore

theorem ensures_askColumn {σ : Type} {store : DataStore σ} {column : String} {r : Query.Request}
    {s : σ} {P : String → Prop}
    (h : ∀ rows, (store.answer r s).1 = .ok rows → ∀ row ∈ rows, ∀ text,
      Row.text? row column = some text → P text) :
    (store.askColumn column r).Ensures s (fun texts _ => ∀ text ∈ texts, P text)
      fun _ _ => True := by
  rw [askColumn, Session.ensures_bind]
  refine ensures_ask (fun rows hrows text htext => ?_) fun _ _ => trivial
  obtain ⟨row, hrow, htext⟩ := List.mem_filterMap.mp htext
  exact h rows hrows row hrow text htext

end DataStore

namespace Screener

variable {σ : Type} (sc : Screener σ)

/-- The last time that is to be known at an anchor. -/
def bound (anchor : String) : Timeframe → String
  | .hourly => anchor ++ " " ++ sc.settings.cutoff.text
  | .daily | .weekly => anchor

theorem resolves_within (hfeed : sc.feed.Pairwise (· > ·)) (hstore : sc.store.KeepsBounds)
    (anchor : String) : sc.Resolves (fun tf w => w.Within (sc.bound anchor tf)) anchor := by
  intro tf s
  have hfind : (sc.findWindow anchor tf).Ensures s (fun w _ => w.Within (sc.bound anchor tf))
      fun _ _ => True := by
    cases tf with
    | daily =>
      refine Window.within_ofDates fun date hdate => ?_
      rw [dropWhile_eq_filter hfeed] at hdate
      exact of_decide_eq_true (List.mem_filter.mp (List.mem_of_mem_take hdate)).2
    | hourly =>
      rw [findWindow, hourlyWindow, Session.ensures_bind]
      apply (DataStore.ensures_askColumn (hstore.hourly _ _ s)).mono _ fun _ _ h => h
      intro times t htimes
      exact Window.within_ofDates htimes
    | weekly =>
      rw [findWindow, weeklyWindow, Session.ensures_bind]
      apply (DataStore.ensures_askColumn (hstore.weekly _ _ s)).mono _ fun _ _ h => h
      intro dates t hdates
      exact Window.within_ofDates fun date hdate => hdates date (Weeks.mem_of_mem_kept hdate)
  rw [resolve, Session.ensures_bind]
  apply hfind.mono _ fun _ _ h => h
  intro w t hw
  exact hw

variable {sc}

/-- No plan that is made for an anchor knows a time after the bound of its timeframe. -/
theorem ensures_plans_within (hfeed : sc.feed.Pairwise (· > ·)) (hstore : sc.store.KeepsBounds)
    (rule : Rule) (anchor : String) (allow : Option (List String)) (s : σ) :
    (sc.plans rule anchor allow).Ensures s (fun ps _ => ∀ p ∈ ps, p.Within (sc.bound anchor))
      fun _ _ => True := by
  rw [plans, Session.ensures_withFresh]
  refine (plansWith_follows sc.store.recorded_follows rule anchor allow).ensures
    (t := ((s, []), {})) ?_
  rw [plansWith, Session.ensures_bind]
  refine Session.ensures_ofNoted (fun cs _ => ?_) fun _ _ => trivial
  have hW := resolves_within (sc.onStore sc.store.recorded) hfeed hstore.recorded anchor
  apply (charges_planCompiled (s := s) rfl [] hW .buy Windows.have_empty allow cs).mono
  · rintro ps t ⟨hps, -⟩ p hp
    exact (hps p hp).within
  · exact fun _ _ _ => trivial

end Screener

end StockScreen

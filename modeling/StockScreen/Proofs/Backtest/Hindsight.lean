import StockScreen.Backtest.Simulation
import StockScreen.Proofs.Backtest.Balance
import StockScreen.Proofs.Backtest.Bounds

/-! # Backtests without hindsight

Calls about dates up to a last one ask for the same and get the same verdicts
with every feed that has the same dates up to then, and so do simulations that
end there. No request for stocks refers to a time after the date of its call.
-/

namespace StockScreen

namespace Session

theorem bind_congr_of_ensures {σ α β : Type} {x : Session σ α} {f g : α → Session σ β} {s : σ}
    (h : x.Ensures s (fun v t => f v t = g v t) fun _ _ => True) :
    (x >>= f) s = (x >>= g) s := by
  change x.bind f s = x.bind g s
  cases ho : (x s).1.outcome with
  | ok v => simp only [Session.bind, ho, h.ok ho]
  | error e => simp only [Session.bind, ho]

end Session

namespace Backtest

variable {σ : Type}

def withFeed (b : Backtest σ) (feed : List String) : Backtest σ :=
  { b with screener := b.screener.withFeed feed }

variable {b : Backtest σ} {feed : List String} {last date : String}

theorem ensures_enter_date (date : String) (w : σ × Memo) :
    (b.enter date).Ensures w (fun e _ => e.date = date) fun _ _ => True := by
  obtain ⟨s, m⟩ := w
  have hload : (b.load date).Ensures (s, m) (fun e _ => e.date = date) fun _ _ => True := by
    cases ho : (b.screener.store.ask (.rawRows date) s).1.outcome with
    | ok rows =>
      simp only [Session.Ensures, load, ho]
      rfl
    | error e => simp only [Session.Ensures, load, ho]
  cases he : m.entry with
  | none => simpa only [Session.Ensures, enter, he] using hload
  | some e =>
    by_cases hlt : date < e.date
    · simp only [Session.Ensures, enter, he, if_pos hlt]
      trivial
    · by_cases heq : e.date = date
      · simp only [Session.Ensures, enter, he, if_neg hlt, if_pos heq]
        exact heq
      · simpa only [Session.Ensures, enter, he, if_neg hlt, if_neg heq] using hload

section

variable (h : SameUpTo last b.screener.feed feed)
include h

theorem sideIds_withFeed (side : Side) {e : DayEntry} (he : e.date ≤ last) :
    (b.withFeed feed).sideIds side e = b.sideIds side e := by
  have hrule : (b.withFeed feed).rule side = b.rule side := by cases side <;> rfl
  have hids := Screener.idsWith_withFeed h he (b.rule side) none
  funext ⟨s, m⟩
  simp only [sideIds, hrule]
  simp only [withFeed, hids]

theorem evaluate_withFeed (side : Side) (stock : String) (hdate : date ≤ last) (waiting : Bool) :
    (b.withFeed feed).evaluate side stock date waiting = b.evaluate side stock date waiting := by
  have hrule : (b.withFeed feed).rule side = b.rule side := by cases side <;> rfl
  have hfeed : (b.withFeed feed).screener.feed.contains date = b.screener.feed.contains date := by
    rw [Bool.eq_iff_iff, List.contains_iff_mem, List.contains_iff_mem]
    exact (h.same date hdate).symm
  rw [evaluate, evaluate, hrule, hfeed]
  split
  · rfl
  split
  · rfl
  funext w
  apply Session.bind_congr_of_ensures
  apply (ensures_enter_date (b := b.withFeed feed) date w).mono _ fun _ _ _ => trivial
  rintro e t rfl
  rw [sideIds_withFeed h side hdate]

theorem reply_withFeed {call : Call} (hcall : call.date ≤ last) (w : σ × Memo) :
    (b.withFeed feed).reply call w = b.reply call w := by
  have hrecorded : ((b.withFeed feed).onStore b.screener.store.recorded).verdict call =
      (b.onStore b.screener.store.recorded).verdict call :=
    evaluate_withFeed (b := b.onStore b.screener.store.recorded) h call.side call.stock hcall
      call.waiting
  have hplain : (b.withFeed feed).verdict call = b.verdict call :=
    evaluate_withFeed h call.side call.stock hcall call.waiting
  have hstore : (b.withFeed feed).screener.store = b.screener.store := rfl
  rw [reply, reply, hplain, hstore, hrecorded]

theorem replies_withFeed {calls : List Call} (hcalls : ∀ call ∈ calls, call.date ≤ last)
    (w : σ × Memo) : (b.withFeed feed).replies calls w = b.replies calls w := by
  induction calls generalizing w with
  | nil => rfl
  | cons call calls ih =>
    obtain ⟨hcall, hrest⟩ := List.forall_mem_cons.mp hcalls
    have hplain : (b.withFeed feed).verdict call = b.verdict call :=
      evaluate_withFeed h call.side call.stock hcall call.waiting
    rw [replies, replies, reply_withFeed h hcall, hplain, ih hrest]

theorem walkStocks_withFeed (hdate : date ≤ last) (stocks : List String) :
    (b.withFeed feed).walkStocks date stocks = b.walkStocks date stocks := by
  have hstep : ∀ stock, (b.withFeed feed).step date stock = b.step date stock := by
    intro stock
    simp only [step, evaluate_withFeed h _ _ hdate]
  induction stocks with
  | nil => rfl
  | cons stock stocks ih => simp only [walkStocks, hstep, ih]

theorem walkDates_withFeed (stop : σ → Bool) (stocks : List String) {dates : List String}
    (hdates : ∀ date ∈ dates, date ≤ last) (p : Progress) :
    (b.withFeed feed).walkDates stop stocks dates p = b.walkDates stop stocks dates p := by
  induction dates generalizing p with
  | nil => rfl
  | cons date dates ih =>
    obtain ⟨hdate, hrest⟩ := List.forall_mem_cons.mp hdates
    have hwalk : (b.withFeed feed).walkDate date stocks = b.walkDate date stocks := by
      funext p
      rw [walkDate, walkDate, walkStocks_withFeed h hdate]
    simp only [walkDates, hwalk, ih hrest]

theorem simulate_withFeed (stop : σ → Bool) (stocks : List String) (first? : Option String) :
    (b.withFeed feed).simulate stop feed stocks ⟨first?, some last⟩ =
      b.simulate stop b.screener.feed stocks ⟨first?, some last⟩ := by
  have hle : ∀ date, DateRange.contains ⟨first?, some last⟩ date → date ≤ last := by
    intro date hdate
    exact of_decide_eq_true (Bool.and_eq_true_iff.mp hdate).2
  have hdates : feed.reverse.filter (DateRange.contains ⟨first?, some last⟩) =
      b.screener.feed.reverse.filter (DateRange.contains ⟨first?, some last⟩) := by
    rw [List.filter_reverse, List.filter_reverse, h.filter_eq hle]
  rw [simulate, simulate, hdates,
    walkDates_withFeed h stop stocks fun date hdate => hle date (List.mem_filter.mp hdate).2]

end

theorem exists_plans_within (hfeed : b.screener.feed.Pairwise (· > ·))
    (hstore : b.screener.store.KeepsBounds) (calls : List Call) (s : σ) {r : Reply}
    (hr : r ∈ b.replies calls (s, {})) {mode : Query.CombineMode} {selects : List Query.Select}
    {answer : Except StoreFault (List Row)}
    (hx : ⟨.matching mode selects, answer⟩ ∈ r.exchanges) :
    ∃ ps : List Plan, selects = ps.map Plan.query ∧
      ∀ p ∈ ps, p.Within (b.screener.bound r.call.date) := by
  have hW := Screener.resolves_within (b.screener.onStore b.screener.store.recorded) hfeed
    hstore.recorded
  have hbalanced := balanced_replies (b := b) hW calls s balanced_fresh
  cases hbalanced.asks r hr _ hx with
  | stocks hps => exact ⟨_, rfl, fun p hp => (hps p hp).within⟩

/-- What is found up to a date does not depend on trading dates after it, and no plan refers to a
time after its anchor when the store keeps to the bounds that it is asked for. -/
theorem no_hindsight {σ : Type} (b : Backtest σ) (feed : List String) (last : String)
    (h : SameUpTo last b.screener.feed feed) :
    (∀ calls w, (∀ call ∈ calls, call.date ≤ last) →
      (b.withFeed feed).replies calls w = b.replies calls w) ∧
    (∀ stop stocks first? w, (b.withFeed feed).simulate stop feed stocks ⟨first?, some last⟩ w =
      b.simulate stop b.screener.feed stocks ⟨first?, some last⟩ w) ∧
    (b.screener.store.KeepsBounds →
      (∀ rule anchor allow s ps, (b.screener.plans rule anchor allow s).1.outcome = .ok ps →
        ∀ p ∈ ps, p.Within (b.screener.bound anchor)) ∧
      ∀ calls s, ∀ r ∈ b.replies calls (s, {}), ∀ mode selects answer,
        ⟨.matching mode selects, answer⟩ ∈ r.exchanges →
          ∃ ps : List Plan, selects = ps.map Plan.query ∧
            ∀ p ∈ ps, p.Within (b.screener.bound r.call.date)) := by
  refine ⟨fun calls w hcalls => replies_withFeed h hcalls w, fun stop stocks first? w => ?_,
    fun hstore => ⟨fun rule anchor allow s ps hps => ?_,
      fun calls s r hr mode selects answer => ?_⟩⟩
  · exact congrFun (simulate_withFeed h stop stocks first?) w
  · exact (Screener.ensures_plans_within h.descending hstore rule anchor allow s).ok hps
  · exact exists_plans_within h.descending hstore calls s hr

/-- A stock that always qualifies by its weekly prices. -/
def paced : Backtest Unit where
  screener :=
    { store := .fixed fun
        | .weeklyDates bound _ =>
          (["2024-01-05", "2023-12-29"].filter (· ≤ bound)).map fun date => [("t", .text date)]
        | _ => [[("stock_id", .text "A"), ("c", .real 1)]]
      catalogs := ⟨⟨"", []⟩, ⟨"", []⟩, ⟨"weekly", [⟨"close", "c", .timeframe .raw⟩]⟩, ⟨"", []⟩⟩
      settings := {}
      feed := ["2024-01-05", "2024-01-03", "2024-01-02"] }
  buy := { weekly := [⟨"this week", "close", ">", "custom value", "0"⟩] }
  sell := { weekly := [⟨"this week", "close", ">", "custom value", "0"⟩] }

theorem sameUpTo_paced :
    SameUpTo "2024-01-03" paced.screener.feed ["2024-01-08", "2024-01-03", "2024-01-02"] where
  descending := by decide +kernel
  descending' := by decide +kernel
  same date hdate := by
    have h5 : date ≠ "2024-01-05" := by
      rintro rfl
      exact absurd hdate (by decide +kernel)
    have h8 : date ≠ "2024-01-08" := by
      rintro rfl
      exact absurd hdate (by decide +kernel)
    simp [paced, h5, h8]

theorem keepsBounds_paced : paced.screener.store.KeepsBounds where
  hourly := by
    rintro bound limit s _ ⟨⟩ row hrow time htime
    rw [List.mem_singleton.mp hrow] at htime
    cases htime
  weekly := by
    rintro bound limit s _ ⟨⟩ row hrow date hdate
    obtain ⟨date', hdate', rfl⟩ := List.mem_map.mp hrow
    cases hdate
    exact of_decide_eq_true (List.mem_filter.mp hdate').2

/-- With other dates after the last one the calls get the same verdicts, and the plan is anchored in
the week before. -/
theorem paced_without_hindsight :
    let calls : List Call := [⟨.buy, "A", "2024-01-02", false⟩, ⟨.sell, "A", "2024-01-03", true⟩]
    let feed := ["2024-01-08", "2024-01-03", "2024-01-02"]
    (paced.replies calls ((), {})).map (fun r => r.outcome.toOption.map Option.isSome) =
        [some true, some true] ∧
      (paced.withFeed feed).replies calls ((), {}) = paced.replies calls ((), {}) ∧
      ∃ ps, (paced.screener.plans paced.buy "2024-01-03" none ()).1.outcome = .ok ps ∧
        ps.map Plan.anchorDate = [some "2023-12-29"] ∧
        ∀ p ∈ ps, p.Within (paced.screener.bound "2024-01-03") := by
  intro calls feed
  obtain ⟨hreplies, -, hplans⟩ := no_hindsight paced feed "2024-01-03" sameUpTo_paced
  refine ⟨by decide +kernel, hreplies calls ((), {}) (by decide +kernel), ?_⟩
  have hanchors : (paced.screener.plans paced.buy "2024-01-03" none ()).1.outcome.toOption.map
      (fun ps => ps.map Plan.anchorDate) = some [some "2023-12-29"] := by decide +kernel
  cases ho : (paced.screener.plans paced.buy "2024-01-03" none ()).1.outcome with
  | error e => simp [ho, Except.toOption] at hanchors
  | ok ps =>
    rw [ho] at hanchors
    exact ⟨ps, rfl, Option.some.inj hanchors, (hplans keepsBounds_paced).1 _ _ _ _ ps ho⟩

end Backtest

end StockScreen

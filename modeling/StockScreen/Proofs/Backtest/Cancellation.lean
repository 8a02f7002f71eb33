import StockScreen.Proofs.Backtest.Replies
import StockScreen.Proofs.Backtest.Walk
import StockScreen.Proofs.Session.Exchanges

/-! # Simulations that are cancelled

The flag is looked at before each date, and a date that has been begun is
finished. When a store gives each request one answer, rows or a fault, a
cancelled simulation has found what a simulation over the dates before the
look finds: nothing of a later date is in its result.
-/

namespace StockScreen

namespace Backtest

open Session (Follows alongside)

variable {σ τ : Type}

/-- A simulation under a flag that may also be raised from outside. -/
def simulateUnder (b : Backtest σ) (flag : String → σ → Bool) (feed stocks : List String)
    (range : DateRange) : Session (σ × Memo) Simulation := do
  let p ← b.walkDatesUnder flag stocks (feed.reverse.filter range.contains) {}
  let stats ← .inspect fun (_, m) => m.stats
  pure ⟨p.book.closed, p.book.openPositions, p.processed, p.skipped, p.cancelled, stats⟩

/-- A walk over dates that a flag ends: the dates before the one at `k` have been walked, and the
look before this one is the first that sees the flag raised. -/
structure Halt (b : Backtest σ) (flag : String → σ → Bool) (stocks dates : List String)
    (w : σ × Memo) (k : Nat) where
  date : String
  progress : Progress
  reached : σ × Memo
  date_eq : dates[k]? = some date
  walked : (b.walkDatesUnder flag stocks (dates.take k) {}).result w = (.ok progress, reached)
  running : progress.cancelled = false
  seen : flag date reached.1 = true

variable {b : Backtest σ} {stop : σ → Bool} {flag : String → σ → Bool}
  {feed stocks dates : List String} {range : DateRange} {date : String} {p q : Progress}
  {w w' : σ × Memo}

theorem simulate_eq_under :
    b.simulate stop feed stocks range = b.simulateUnder (fun _ => stop) feed stocks range := by
  rw [simulate, simulateUnder, walkDates_eq_under]

theorem result_simulateUnder
    (h : (b.walkDatesUnder flag stocks (feed.reverse.filter range.contains) {}).result w =
      (.ok p, w')) :
    (b.simulateUnder flag feed stocks range).result w =
      (.ok ⟨p.book.closed, p.book.openPositions, p.processed, p.skipped, p.cancelled, w'.2.stats⟩,
        w') := by
  rw [simulateUnder, Session.result_bind_of_ok h]
  rfl

theorem walkDates_of_running (h : (b.walkDatesUnder flag stocks dates p).result w = (.ok q, w'))
    (hq : q.cancelled = false) :
    (b.walkDatesUnder (fun _ _ => false) stocks dates p).result w = (.ok q, w') := by
  induction dates generalizing p w with
  | nil => exact h
  | cons date dates ih =>
    cases hs : flag date w.1 with
    | true =>
      rw [walkDatesUnder_cons_of_raised hs] at h
      cases h
      cases hq
    | false =>
      rw [walkDatesUnder_cons_of_running hs] at h
      obtain ⟨p', t, hp, hrest⟩ := Session.exists_of_result_bind h
      rw [walkDatesUnder_cons_of_running rfl, Session.result_bind_of_ok hp]
      exact ih hrest

/-- The walk ends before the date of the look, with the progress of the dates before it. -/
theorem Halt.result_walkDatesUnder {k : Nat} (h : b.Halt flag stocks dates w k) :
    (b.walkDatesUnder flag stocks dates {}).result w =
      (.ok { h.progress with cancelled := true }, h.reached) := by
  obtain ⟨hk, hdate⟩ := List.getElem?_eq_some_iff.mp h.date_eq
  have hsplit : dates = dates.take k ++ h.date :: dates.drop (k + 1) := by
    rw [← hdate, List.getElem_cons_drop hk, List.take_append_drop]
  have hall := walkDatesUnder_append (h.date :: dates.drop (k + 1)) h.walked h.running
  rw [← hsplit] at hall
  rw [hall, walkDatesUnder_cons_of_raised h.seen]

/-! ## Over a store that follows another one -/

section

variable {π : τ → σ} {fine : DataStore τ} (h : DataStore.Follows π fine b.screener.store)
include h

theorem step_follows (date stock : String) :
    Follows (alongside Book (alongside Memo π)) ((b.onStore fine).step date stock)
      (b.step date stock) := by
  have hbook : Follows (alongside Book (alongside Memo π)) (Session.inspect Prod.snd)
      (Session.inspect Prod.snd) := Session.follows_inspect fun _ => rfl
  apply hbook.bind
  intro book
  have hverdict := verdict_follows h
    ⟨book.side stock, stock, date, book.isWaiting (book.side stock) stock⟩
  apply hverdict.onFirst.bind
  intro verdict
  exact (Session.follows_ofNoted _).bind fun _ => Session.follows_setSecond _

theorem walkStocks_follows (date : String) (stocks : List String) :
    Follows (alongside Book (alongside Memo π)) ((b.onStore fine).walkStocks date stocks)
      (b.walkStocks date stocks) := by
  induction stocks with
  | nil => exact Session.follows_pure _
  | cons stock stocks ih =>
    apply (step_follows h date stock).attempt.bind
    rintro (fault | ⟨⟩)
    · exact Session.follows_pure _
    · exact ih

theorem walkDate_follows (date : String) (stocks : List String) (p : Progress) :
    Follows (alongside Memo π) ((b.onStore fine).walkDate date stocks p)
      (b.walkDate date stocks p) := by
  apply ((walkStocks_follows h date stocks).lending p.book).bind
  rintro ⟨_ | fault, book⟩
  · exact Session.follows_pure _
  · exact (Session.follows_warn _).bind fun _ => Session.follows_pure _

theorem walkDatesUnder_follows (flag : String → σ → Bool) (stocks dates : List String)
    (p : Progress) :
    Follows (alongside Memo π)
      ((b.onStore fine).walkDatesUnder (fun date t => flag date (π t)) stocks dates p)
      (b.walkDatesUnder flag stocks dates p) := by
  induction dates generalizing p with
  | nil => exact Session.follows_pure _
  | cons date dates ih =>
    have hlook : Follows (alongside Memo π) (.inspect fun t => flag date (π t.1))
        (.inspect fun t => flag date t.1) := Session.follows_inspect fun _ => rfl
    apply hlook.bind
    intro seen
    cases seen with
    | true => exact Session.follows_pure _
    | false => exact (walkDate_follows h date stocks p).bind ih

end

variable {answers : Query.Request → Except StoreFault (List Row)}

/-- Over a store where each request has one answer, a walk does not depend on the state of the
store. -/
theorem walkDates_of_answers (h : ∀ r s, (b.screener.store.answer r s).1 = answers r)
    {s t : σ} {m m' : Memo}
    (hwalk : (b.walkDatesUnder (fun _ _ => false) stocks dates p).result (s, m) = (.ok q, (t, m')))
    (s' : σ) :
    ∃ t', (b.walkDatesUnder (fun _ _ => false) stocks dates p).result (s', m) =
      (.ok q, (t', m')) := by
  have hfollows : Follows (alongside Memo fun _ => ())
      (b.walkDatesUnder (fun _ _ => false) stocks dates p)
      ((b.onStore (.replying answers)).walkDatesUnder (fun _ _ => false) stocks dates p) :=
    walkDatesUnder_follows (b := b.onStore (.replying answers)) (DataStore.follows_replying h)
      (fun _ _ => false) stocks dates p
  have hs := hfollows.result (s, m)
  have hs' := hfollows.result (s', m)
  rw [hwalk] at hs
  obtain ⟨hr, hm⟩ := Prod.ext_iff.mp (hs.symm.trans hs')
  refine ⟨_, Prod.ext hr.symm (Prod.ext rfl ?_)⟩
  exact (congrArg Prod.snd hm).symm

/-- When each request has one answer, and the look before the date at `k` is the first that sees the
flag, the simulation is cancelled. It has found what a simulation finds that nothing stops, over the
`k` dates before, from a fresh memory and in any state of the store. -/
theorem cancelled_simulation_truncates {σ : Type} (b : Backtest σ)
    (answers : Query.Request → Except StoreFault (List Row)) (flag : String → σ → Bool)
    (feed feed' stocks : List String) (range range' : DateRange) (s s' : σ) (k : Nat)
    (hanswers : ∀ r s, (b.screener.store.answer r s).1 = answers r)
    (h : b.Halt flag stocks (feed.reverse.filter range.contains) (s, {}) k)
    (hdates : feed'.reverse.filter range'.contains =
      (feed.reverse.filter range.contains).take k) :
    ∃ sim, (b.simulateUnder flag feed stocks range (s, {})).1.outcome =
        .ok { sim with cancelled := true } ∧
      (b.simulate (fun _ => false) feed' stocks range' (s', {})).1.outcome = .ok sim ∧
      sim.cancelled = false := by
  obtain ⟨t', hwalk⟩ := walkDates_of_answers hanswers (walkDates_of_running h.walked h.running) s'
  rw [← hdates] at hwalk
  have hcancelled := result_simulateUnder h.result_walkDatesUnder
  have huncut := result_simulateUnder hwalk
  rw [← simulate_eq_under] at huncut
  exact ⟨_, Session.outcome_of_result hcancelled, Session.outcome_of_result huncut, h.running⟩

/-- A store that counts its requests, has no rows for one date, and always the same stock to buy
or to sell. -/
def counting : Backtest Nat where
  screener :=
    { store :=
        { answer := fun r n =>
            (match r with
              | .rawRows date =>
                if date = "2024-01-03" then .error (.query "timeout")
                else .ok [[("stock_id", .text "A"), ("c", .real 1)],
                  [("stock_id", .text "B"), ("c", .real 2)]]
              | _ => .ok [[("stock_id", .text "A")]], n + 1) }
      catalogs := ⟨⟨"", []⟩, ⟨"daily", [⟨"close", "c", .timeframe .raw⟩]⟩, ⟨"", []⟩, ⟨"", []⟩⟩
      settings := {}
      feed := ["2024-01-08", "2024-01-05", "2024-01-04", "2024-01-03", "2024-01-02"] }
  buy := { daily := [⟨"today", "close", ">", "custom value", "0"⟩] }
  sell := { daily := [⟨"today", "close", ">", "custom value", "0"⟩] }

/-- The flag is up after five requests. The first stock makes the last of them on the third
date. -/
def counting.raised (n : Nat) : Bool := decide (5 ≤ n)

def counting.threeDates : Session (Nat × Memo) (Bool × Bool) := do
  let p ← counting.walkDatesUnder (fun _ => counting.raised) ["A", "B"]
    ["2024-01-02", "2024-01-03", "2024-01-04"] {}
  .inspect fun w => (p.cancelled, counting.raised w.1)

/-- The second stock has its turn on the third date although the flag is up, and the simulation is
the one of the first three dates. -/
theorem counting_truncates :
    ∃ sim, (counting.simulate counting.raised counting.screener.feed ["A", "B"] {}
        (0, {})).1.outcome = .ok { sim with cancelled := true } ∧
      (counting.simulate (fun _ => false) counting.screener.feed ["A", "B"]
        ⟨none, some "2024-01-04"⟩ (7, {})).1.outcome = .ok sim ∧
      (sim.processed, sim.skipped, sim.openPositions.map Position.stock, sim.stats) =
        (2, 1, ["A"], ⟨2, 2, 0⟩) := by
  have hthree : (counting.threeDates (0, {})).1.outcome.toOption = some (false, true) := by
    decide +kernel
  have hrun : (counting.simulate (fun _ => false) counting.screener.feed ["A", "B"]
      ⟨none, some "2024-01-04"⟩ (7, {})).1.outcome.toOption.map (fun sim =>
        (sim.processed, sim.skipped, sim.openPositions.map Position.stock, sim.stats)) =
      some (2, 1, ["A"], ⟨2, 2, 0⟩) := by
    decide +kernel
  cases ho : (counting.threeDates (0, {})).1.outcome with
  | error e => simp [ho, Except.toOption] at hthree
  | ok v =>
    obtain rfl : v = _ := by simpa [ho, Except.toOption] using hthree
    obtain ⟨t, hthree⟩ := Session.exists_result ho
    obtain ⟨p, reached, hwalked, h⟩ := Session.exists_of_result_bind hthree
    simp only [Session.result_inspect, Prod.mk.injEq, Except.ok.injEq] at h
    obtain ⟨⟨hcancelled, hseen⟩, -⟩ := h
    let halt : counting.Halt (fun _ => counting.raised) ["A", "B"]
        (counting.screener.feed.reverse.filter (DateRange.contains {})) (0, {}) 3 :=
      { date := "2024-01-05", progress := p, reached := reached, date_eq := rfl,
        walked := hwalked, running := hcancelled, seen := hseen }
    obtain ⟨sim, hcut, huncut, -⟩ := cancelled_simulation_truncates counting
      (fun r => (counting.screener.store.answer r 0).1) (fun _ => counting.raised)
      counting.screener.feed counting.screener.feed ["A", "B"] {} ⟨none, some "2024-01-04"⟩ 0 7 3
      (fun _ _ => rfl) halt (by decide +kernel)
    rw [← simulate_eq_under] at hcut
    refine ⟨sim, hcut, huncut, ?_⟩
    simpa [huncut, Except.toOption] using hrun

end Backtest

end StockScreen

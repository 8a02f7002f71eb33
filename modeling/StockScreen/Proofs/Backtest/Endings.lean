import StockScreen.Proofs.Backtest.Balance
import StockScreen.Proofs.Backtest.Cancellation
import StockScreen.Proofs.Backtest.Chronology

/-! # How simulations end

Whatever the store answers, and wherever it fails, a simulation on a fresh
memory asks for dates in their order, so that no call is refused. Each date
counts once, as processed or as skipped, and only a rule that does not compile
ends a simulation with an error.
-/

namespace StockScreen

def Memo.UpTo (m : Memo) (date : String) : Prop := ∀ d, m.date? = some d → d ≤ date

namespace Backtest

variable {σ : Type} {b : Backtest σ} {flag : String → σ → Bool} {stocks dates : List String}
  {date : String}

theorem RuleFails.isStoreFault {side : Side} {e : ScreenError} (h : b.RuleFails side e) :
    e.isStoreFault = false := by
  have habout := h.aboutPrompt
  cases e with
  | store fault => exact habout.elim
  | _ => rfl

/-- A call about a date that is not before the live one fails because of the store or because of
its rule, and the next call about that date is not before the live one either. -/
theorem ensures_verdict_upTo (call : Call) (s : σ) {m : Memo} (hm : m.UpTo call.date) :
    (b.verdict call).Ensures (s, m) (fun _ t => t.2.UpTo call.date)
      fun e t => ((∃ fault, e = .store fault) ∨ b.RuleFails call.side e) ∧ t.2.UpTo call.date := by
  have hrefused : ∀ current, ¬ (b.onStore b.screener.store.recorded).Refuses call m current :=
    fun current h => not_lt_of_ge (hm current h.live) h.before
  have hv := settled_verdict (W := fun _ _ _ => True) (s := s)
    (b := b.onStore b.screener.store.recorded) [] rfl (fun _ => resolves_true _ _)
    (fun _ _ _ _ _ => trivial) call hrefused
  have hupTo : ∀ {log : List DataStore.Exchange} {m' : Memo},
      (b.onStore b.screener.store.recorded).Settled (fun _ _ _ => True) call [] m log m' →
        m'.UpTo call.date := by
    intro log m' h d hd
    rcases h.accounts.live with hentry | ⟨hdate, -⟩
    · rw [Memo.date?, hentry] at hd
      exact hm d hd
    · exact le_of_eq (Option.some.inj (hd.symm.trans hdate))
  refine (verdict_follows b.screener.store.recorded_follows call).ensures (t := ((s, []), m)) ?_
  apply hv.mono
  · intro _ t h
    exact hupTo h
  · rintro e t ⟨hfault | hrule, h⟩
    · exact ⟨.inl hfault, hupTo h⟩
    · exact ⟨.inr (ruleFails_onStore.mp hrule), hupTo h⟩

theorem ensures_step_upTo (book : Book) (stock : String) {w : σ × Memo} (hw : w.2.UpTo date) :
    (b.step date stock).Ensures (w, book) (fun _ t => t.1.2.UpTo date)
      (Session.onFault (fun _ t => t.1.2.UpTo date) fun e _ => ∃ side, b.RuleFails side e) := by
  let call : Call := ⟨book.side stock, stock, date, book.isWaiting (book.side stock) stock⟩
  have hverdict : (b.verdict call).Ensures w (fun _ t => t.2.UpTo date)
      (Session.onFault (fun _ t => t.2.UpTo date) fun e _ => ∃ side, b.RuleFails side e) := by
    apply (ensures_verdict_upTo (b := b) call w.1 hw).mono fun _ _ h => h
    rintro e t ⟨⟨fault, rfl⟩ | hrule, ht⟩
    · exact ht
    · cases e with
      | store fault => cases hrule.isStoreFault
      | _ => exact ⟨_, hrule⟩
  apply (ensures_step hverdict).mono
  · rintro _ t ⟨verdict, ht, -⟩
    exact ht
  · rintro e t ⟨-, he⟩
    cases e <;> exact he

theorem ensures_walkStocks_upTo (book : Book) {w : σ × Memo} (hw : w.2.UpTo date) :
    (b.walkStocks date stocks).Ensures (w, book) (fun _ t => t.1.2.UpTo date)
      fun e _ => ∃ side, b.RuleFails side e := by
  have hstep : ∀ done stock todo book (w : σ × Memo), stocks = done ++ stock :: todo →
      w.2.UpTo date → (b.step date stock).Ensures (w, book) (fun _ t => t.1.2.UpTo date)
        (Session.onFault (fun _ t => t.1.2.UpTo date) fun e _ => ∃ side, b.RuleFails side e) :=
    fun _ stock _ book _ _ => ensures_step_upTo book stock
  apply (ensures_walkStocks (I := fun _ _ t => t.2.UpTo date) (J := fun _ _ t => t.2.UpTo date)
    (E := fun e _ => ∃ side, b.RuleFails side e) hstep hw).mono _ fun _ _ h => h
  rintro (_ | fault) t h
  · exact h
  · obtain ⟨done, -, h⟩ := h
    exact h

/-- Between two dates of a simulation that goes on: each date so far has been counted, and the live
date is not after the last of them. -/
structure Counted (done : List String) (p : Progress) (m : Memo) : Prop where
  count : p.processed + p.skipped = done.length
  running : p.cancelled = false
  live : ∀ d, m.date? = some d → ∃ last ∈ done, d ≤ last

theorem ensures_walkDate_counted {done : List String} (hdone : ∀ d ∈ done, d < date)
    {p : Progress} {w : σ × Memo} (h : Counted done p w.2) :
    (b.walkDate date stocks p).Ensures w (fun p' t => Counted (done ++ [date]) p' t.2)
      fun e _ => ∃ side, b.RuleFails side e := by
  have hw : w.2.UpTo date := by
    intro d hd
    obtain ⟨last, hlast, hle⟩ := h.live d hd
    exact hle.trans (hdone last hlast).le
  have hlive : ∀ {t : σ × Memo}, t.2.UpTo date →
      ∀ d, t.2.date? = some d → ∃ last ∈ done ++ [date], d ≤ last :=
    fun ht d hd => ⟨date, by simp, ht d hd⟩
  have hcount := h.count
  apply ensures_walkDate
  apply (ensures_walkStocks_upTo p.book hw).mono _ fun _ _ he => he
  rintro (_ | fault) t ht
  · refine ⟨?_, h.running, hlive ht⟩
    simp only [List.length_append, List.length_singleton]
    omega
  · refine ⟨?_, h.running, hlive ht⟩
    simp only [List.length_append, List.length_singleton]
    omega

theorem ensures_walkDatesUnder_counted (hdates : dates.Pairwise (· < ·)) (s : σ) :
    (b.walkDatesUnder flag stocks dates {}).Ensures (s, {})
      (fun p _ => p.processed + p.skipped ≤ dates.length ∧
        (p.processed + p.skipped = dates.length ↔ p.cancelled = false))
      fun e _ => ∃ side, b.RuleFails side e := by
  have hdate : ∀ done date todo (p : Progress) (w : σ × Memo), dates = done ++ date :: todo →
      Counted done p w.2 → flag date w.1 = false → (b.walkDate date stocks p).Ensures w
        (fun p' t => Counted (done ++ [date]) p' t.2) fun e _ => ∃ side, b.RuleFails side e :=
    fun done date todo p w hd h _ => ensures_walkDate_counted (pairwise_before (hd ▸ hdates)) h
  have hempty : Counted [] {} {} := ⟨rfl, rfl, fun d hd => by cases hd⟩
  apply (ensures_walkDatesUnder (I := fun done p w => Counted done p w.2)
    (J := fun done p _ => p.processed + p.skipped = done.length ∧ p.cancelled = true)
    (fun done date p w h _ => ⟨h.count, rfl⟩) hdate hempty).mono _ fun _ _ he => he
  rintro p t (h | ⟨done, date, todo, rfl, hcount, hcancelled⟩)
  · exact ⟨h.count.le, fun _ => h.running, fun _ => h.count⟩
  · rw [hcount, List.length_append, List.length_cons]
    refine ⟨by omega, fun h => ?_, fun h => ?_⟩
    · omega
    · cases hcancelled.symm.trans h

/-- How a simulation on a fresh memory ends. It fails only with the error of a rule that has prompts
and does not compile, which is neither a fault of the store nor about the order of dates. Otherwise
each date of the range counts at most once, and all of them count just when nothing has stopped the
simulation. -/
theorem simulation_ends {σ : Type} (b : Backtest σ) (flag : String → σ → Bool)
    (feed stocks : List String) (range : DateRange) (s : σ) (hfeed : feed.Pairwise (· > ·)) :
    let dates := feed.reverse.filter range.contains
    (∀ e, (b.simulateUnder flag feed stocks range (s, {})).1.outcome = .error e →
      (∃ side, (b.rule side).isEmpty = false ∧
        (b.screener.compile (b.rule side)).outcome = .error e) ∧
      e.isStoreFault = false ∧ e ≠ .noActiveConditions ∧
        ∀ requested current, e ≠ .outOfOrder requested current) ∧
    ∀ sim, (b.simulateUnder flag feed stocks range (s, {})).1.outcome = .ok sim →
      sim.processed + sim.skipped ≤ dates.length ∧
        (sim.processed + sim.skipped = dates.length ↔ sim.cancelled = false) := by
  intro dates
  have hrun : (b.simulateUnder flag feed stocks range).Ensures (s, {})
      (fun sim _ => sim.processed + sim.skipped ≤ dates.length ∧
        (sim.processed + sim.skipped = dates.length ↔ sim.cancelled = false))
      fun e _ => ∃ side, b.RuleFails side e := by
    rw [simulateUnder, Session.ensures_bind]
    apply (ensures_walkDatesUnder_counted (datesOf_ascending hfeed range) s).mono _
      fun _ _ he => he
    intro p t hp
    rw [Session.ensures_bind, Session.ensures_inspect]
    exact hp
  constructor
  · intro e he
    obtain ⟨side, hrule⟩ := hrun.error he
    refine ⟨⟨side, hrule⟩, hrule.isStoreFault, ?_, ?_⟩
    · rintro rfl
      exact hrule.aboutPrompt
    · rintro requested current rfl
      exact hrule.aboutPrompt
  · intro sim hsim
    exact hrun.ok hsim

/-- A store that fails for its first request, and a rule to sell that names no indicator. -/
def unsellable : Backtest Nat where
  screener :=
    { store :=
        { answer := fun _ n =>
            (if n = 0 then .error (.access "locked")
              else .ok [[("stock_id", .text "A"), ("c", .real 1)]], n + 1) }
      catalogs := ⟨⟨"", []⟩, ⟨"daily", [⟨"close", "c", .timeframe .raw⟩]⟩, ⟨"", []⟩, ⟨"", []⟩⟩
      settings := {}
      feed := ["2024-01-05", "2024-01-04", "2024-01-03", "2024-01-02"] }
  buy := { daily := [⟨"today", "close", ">", "custom value", "0"⟩] }
  sell := { daily := [⟨"today", "volume", ">", "custom value", "0"⟩] }

/-- The first date is skipped, and the stock is bought on the third one. Without the fourth date the
simulation counts all of its dates, and with it the rule to sell is compiled and fails. -/
theorem unsellable_ends :
    (∃ sim, (unsellable.simulate (fun _ => false) unsellable.screener.feed ["A"]
        ⟨none, some "2024-01-04"⟩ (0, {})).1.outcome = .ok sim ∧
      (sim.processed, sim.skipped) = (2, 1) ∧ sim.cancelled = false) ∧
    ∃ e, (unsellable.simulate (fun _ => false) unsellable.screener.feed ["A"] {}
        (0, {})).1.outcome = .error e ∧
      (unsellable.screener.compile unsellable.sell).outcome = .error e ∧
      e.isStoreFault = false := by
  have hends := fun range => simulation_ends unsellable (fun _ _ => false)
    unsellable.screener.feed ["A"] range 0 (by decide +kernel)
  simp only [← simulate_eq_under] at hends
  have hcount : (unsellable.simulate (fun _ => false) unsellable.screener.feed ["A"]
      ⟨none, some "2024-01-04"⟩ (0, {})).1.outcome.toOption.map (fun sim =>
        (sim.processed, sim.skipped)) = some (2, 1) := by
    decide +kernel
  have hfails : (unsellable.simulate (fun _ => false) unsellable.screener.feed ["A"] {}
      (0, {})).1.outcome.toOption.isNone = true := by
    decide +kernel
  constructor
  · cases ho : (unsellable.simulate (fun _ => false) unsellable.screener.feed ["A"]
        ⟨none, some "2024-01-04"⟩ (0, {})).1.outcome with
    | error e => simp [ho, Except.toOption] at hcount
    | ok sim =>
      have hsim : (sim.processed, sim.skipped) = (2, 1) := by
        simpa [ho, Except.toOption] using hcount
      have hall := ((hends ⟨none, some "2024-01-04"⟩).2 sim ho).2
      refine ⟨sim, rfl, hsim, hall.mp ?_⟩
      obtain ⟨hprocessed, hskipped⟩ := Prod.mk.inj hsim
      rw [hprocessed, hskipped]
      decide +kernel
  · cases ho : (unsellable.simulate (fun _ => false) unsellable.screener.feed ["A"] {}
        (0, {})).1.outcome with
    | ok sim => simp [ho, Except.toOption] at hfails
    | error e =>
      obtain ⟨⟨side, -, hcompile⟩, hstore, -⟩ := (hends {}).1 e ho
      cases side with
      | buy => cases hcompile
      | sell => exact ⟨e, rfl, hcompile, hstore⟩

end Backtest

end StockScreen

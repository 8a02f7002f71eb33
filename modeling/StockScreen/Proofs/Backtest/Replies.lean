import StockScreen.Proofs.Backtest.Coherence

/-! # Sequences of calls

Whatever the calls are, and wherever the store fails among them, every verdict
is the one that is expected without a memory, and every failure is explained
by the call itself.
-/

namespace StockScreen

structure Reply where
  call : Call
  outcome : Except ScreenError (Option Verdict)
  exchanges : List DataStore.Exchange

namespace Backtest

variable {σ τ : Type} {b : Backtest σ}

def onStore (b : Backtest σ) (store : DataStore τ) : Backtest τ where
  screener := b.screener.onStore store
  buy := b.buy
  sell := b.sell

/-- The exchanges are those of the same call over a store that records them. -/
def reply (b : Backtest σ) (call : Call) (w : σ × Memo) : Reply where
  call := call
  outcome := (b.verdict call w).1.outcome
  exchanges := ((b.onStore b.screener.store.recorded).verdict call ((w.1, []), w.2)).2.1.2

def replies (b : Backtest σ) : List Call → σ × Memo → List Reply
  | [], _ => []
  | call :: calls, w => b.reply call w :: b.replies calls (b.verdict call w).2

/-! ## Verdicts over a store that follows another one -/

section

open Session (Follows alongside)

variable {π : τ → σ} {fine : DataStore τ} (h : DataStore.Follows π fine b.screener.store)
include h

theorem load_follows (date : String) :
    Follows (alongside Memo π) ((b.onStore fine).load date) (b.load date) := by
  rintro ⟨t, m⟩
  obtain ⟨a, t', hx, hy⟩ := (h (.rawRows date)).run t
  have hx' : (b.onStore fine).screener.store.ask (.rawRows date) t = (a, t') := hx
  simp only [load, alongside, Prod.map, id, hx', hy]
  cases a.outcome <;> exact ⟨rfl, rfl⟩

theorem enter_follows (date : String) :
    Follows (alongside Memo π) ((b.onStore fine).enter date) (b.enter date) := by
  rintro ⟨t, m⟩
  have hl := load_follows h date (t, m)
  cases he : m.entry with
  | none => simpa only [enter, alongside, Prod.map, id, he] using hl
  | some e =>
    by_cases hlt : date < e.date
    · simp only [enter, alongside, Prod.map, id, he, if_pos hlt, and_self]
    · by_cases heq : e.date = date
      · simp only [enter, alongside, Prod.map, id, he, if_neg hlt, if_pos heq, and_self]
      · simpa only [enter, alongside, Prod.map, id, he, if_neg hlt, if_neg heq] using hl

theorem sideIds_follows (side : Side) (e : DayEntry) :
    Follows (alongside Memo π) ((b.onStore fine).sideIds side e) (b.sideIds side e) := by
  rintro ⟨t, m⟩
  obtain ⟨a, ⟨t', ws⟩, hx, hy⟩ :=
    (Screener.idsWith_follows h (b.rule side) e.date none).run (t, e.windows)
  have hx' : (b.onStore fine).screener.idsWith ((b.onStore fine).rule side) e.date none
      (t, e.windows) = (a, (t', ws)) := by
    cases side <;> exact hx
  have hy' : b.screener.idsWith (b.rule side) e.date none (π t, e.windows) =
      (a, (π t', ws)) := hy
  cases hi : e.ids? side with
  | some ids => simp only [sideIds, alongside, Prod.map, id, hi, and_self]
  | none =>
    simp only [sideIds, alongside, Prod.map, id, hi, hx', hy']
    cases a.outcome <;> exact ⟨rfl, rfl⟩

theorem verdict_follows (call : Call) :
    Follows (alongside Memo π) ((b.onStore fine).verdict call) (b.verdict call) := by
  have hrule : (b.onStore fine).rule call.side = b.rule call.side := by
    cases call.side <;> rfl
  have hfeed : (b.onStore fine).screener.feed = b.screener.feed := rfl
  rw [verdict, verdict, evaluate, evaluate, hrule, hfeed]
  split
  · exact Session.follows_pure _
  split
  · exact Session.follows_pure _
  apply (enter_follows h call.date).bind
  intro e
  cases e.row? call.stock with
  | none => exact Session.follows_pure _
  | some row => exact (sideIds_follows h call.side e).bind fun _ => Session.follows_pure _

end

/-! ## What the replies are -/

def FaultSeen (fault : StoreFault) (w : σ × List DataStore.Exchange) : Prop :=
  ∃ x ∈ w.2, x.answer = .error fault

theorem truthful_recorded {store : DataStore σ} {rows : Query.Request → List Row}
    (h : ∀ r s xs, (store.answer r s).1 = .ok xs → xs = rows r) :
    store.recorded.Truthful rows FaultSeen where
  answers r w := h r w.1
  faults r w _ hf := ⟨⟨r, (store.answer r w.1).1⟩, List.mem_cons_self, hf⟩

/-- A reply is explained: a verdict is the expected one, and an error is due to the order of dates,
to a request of the call, or to the rule. -/
structure Explained (b : Backtest σ) (rows : Query.Request → List Row) (reply : Reply) : Prop where
  expected : ∀ v, reply.outcome = .ok v → v = b.expected rows reply.call
  failed : ∀ e, reply.outcome = .error e →
    (∃ current, reply.call.date < current ∧ e = .outOfOrder reply.call.date current) ∨
    (∃ x ∈ reply.exchanges, ∃ fault, x.answer = .error fault ∧ e = .store fault) ∨
    (b.screener.compile (b.rule reply.call.side)).outcome = .error e ∧
      b.screener.freshIds rows (b.rule reply.call.side) reply.call.date none = .error e

variable {rows : Query.Request → List Row}

theorem expected_onStore (store : DataStore τ) (call : Call) :
    (b.onStore store).expected rows call = b.expected rows call := by
  rcases call with ⟨side, stock, date, waiting⟩
  cases side <;> rfl

theorem freshIds_of_compile {rule : Rule} {date : String} {e : ScreenError}
    (h : (b.screener.compile rule).outcome = .error e) :
    b.screener.freshIds rows rule date none = .error e := by
  rw [Screener.freshIds_eq, Screener.idsFrom, h]
  rfl

/-- One call: its reply is explained, and the memory that it leaves is coherent. -/
theorem reply_explained (h : ∀ r s xs, (b.screener.store.answer r s).1 = .ok xs → xs = rows r)
    (call : Call) (s : σ) {m : Memo}
    (hm : (b.onStore b.screener.store.recorded).Coherent rows m) :
    b.Explained rows (b.reply call (s, m)) ∧
      (b.onStore b.screener.store.recorded).Coherent rows (b.verdict call (s, m)).2.2 := by
  have hv := ensures_verdict (truthful_recorded h) hm call (s, [])
  obtain ⟨a, ⟨⟨s', log⟩, m'⟩, hx, hy⟩ :=
    (verdict_follows b.screener.store.recorded_follows call).run ((s, []), m)
  have hy' : b.verdict call (s, m) = (a, (s', m')) := hy
  simp only [Session.Ensures, hx] at hv
  simp only [reply, hx, hy']
  cases ho : a.outcome with
  | ok v =>
    rw [ho] at hv
    obtain ⟨hve, hr⟩ := hv
    refine ⟨⟨?_, by rintro _ ⟨⟩⟩, hr.coherent⟩
    rintro _ ⟨⟩
    rw [hve, expected_onStore]
  | error e =>
    rw [ho] at hv
    obtain ⟨hf, hr⟩ := hv
    refine ⟨⟨by rintro _ ⟨⟩, ?_⟩, hr.coherent⟩
    rintro _ ⟨⟩
    rcases hf with ⟨current, -, hlt, he⟩ | ⟨fault, he, x, hx, hxf⟩ | ⟨-, hc⟩
    · exact .inl ⟨current, hlt, he⟩
    · exact .inr (.inl ⟨x, hx, fault, hxf, he⟩)
    · have hrule : (b.onStore b.screener.store.recorded).rule call.side = b.rule call.side := by
        cases call.side <;> rfl
      have hc' : (b.screener.compile (b.rule call.side)).outcome = .error e := by
        rw [← hc, hrule, ← Screener.compile_onStore b.screener.store.recorded]
        rfl
      exact .inr (.inr ⟨hc', freshIds_of_compile hc'⟩)

/-- Every reply to a sequence of calls is explained, when a request always gets the same answer
unless the store fails. -/
theorem replies_explained (b : Backtest σ) (rows : Query.Request → List Row)
    (h : ∀ r s xs, (b.screener.store.answer r s).1 = .ok xs → xs = rows r)
    (calls : List Call) (s : σ) :
    ∀ reply ∈ b.replies calls (s, {}), b.Explained rows reply := by
  suffices key : ∀ (calls : List Call) (s : σ) (m : Memo),
      (b.onStore b.screener.store.recorded).Coherent rows m →
        ∀ reply ∈ b.replies calls (s, m), b.Explained rows reply from
    key calls s {} coherent_fresh
  intro calls
  induction calls with
  | nil => exact fun _ _ _ => nofun
  | cons call calls ih =>
    intro s m hm reply hr
    obtain ⟨he, hm'⟩ := reply_explained h call s hm
    rcases List.mem_cons.mp hr with rfl | hr
    · exact he
    · exact ih _ _ hm' reply hr

/-- One stock, and a store that fails for the first and for the third request. -/
def flaky : Backtest Nat where
  screener :=
    { store :=
        { answer := fun _ n =>
            (if n = 0 ∨ n = 2 then .error (.access "locked")
              else .ok [[("stock_id", .text "A"), ("c", .real 1)]], n + 1) }
      catalogs := ⟨⟨"", []⟩, ⟨"daily", [⟨"close", "c", .timeframe .raw⟩]⟩, ⟨"", []⟩, ⟨"", []⟩⟩
      settings := {}
      feed := ["2024-01-03", "2024-01-02"] }
  buy := { daily := [⟨"today", "close", ">", "custom value", "0"⟩] }
  sell := { daily := [⟨"yesterday", "close", ">", "custom value", "0"⟩] }

/-- Calls that fail before and after the rows of a date are there, and succeed when repeated. -/
theorem flaky_explained :
    let calls : List Call := [⟨.buy, "A", "2024-01-03", false⟩, ⟨.buy, "A", "2024-01-03", false⟩,
      ⟨.buy, "A", "2024-01-03", false⟩, ⟨.sell, "A", "2024-01-03", true⟩,
      ⟨.buy, "A", "2024-01-02", false⟩]
    (flaky.replies calls (0, {})).map (fun r => r.outcome.toOption.map Option.isSome) =
        [none, none, some true, some true, none] ∧
      ∀ reply ∈ flaky.replies calls (0, {}),
        flaky.Explained (fun _ => [[("stock_id", .text "A"), ("c", .real 1)]]) reply := by
  intro calls
  refine ⟨by decide +kernel, replies_explained flaky _ ?_ calls 0⟩
  intro r n xs hx
  by_cases hn : n = 0 ∨ n = 2
  · simp [flaky, hn] at hx
  · simpa [flaky, hn, eq_comm] using hx

end Backtest

end StockScreen

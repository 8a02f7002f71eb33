import Mathlib.Algebra.Ring.Nat
import StockScreen.Proofs.Backtest.Accounts

/-! # Runs that ask for nothing twice

After any calls, and wherever the store has failed, the memory holds exactly
what has been asked for with success about the live date. Hence no rows, window
or ids are asked for again once they are there, and the counters are right.
-/

namespace StockScreen

open DataStore (Exchange)

def Reply.served (r : Reply) (p : Purpose) : Nat := StockScreen.served r.call.side p r.exchanges

def servedIn (rs : List Reply) (p : Purpose) : Nat := (rs.map fun r => r.served p).sum

def servedOn (rs : List Reply) (date : String) (p : Purpose) : Nat :=
  servedIn (rs.filter fun r => r.call.date == date) p

def Fetched (rs : List Reply) (date : String) (rows : List Row) : Prop :=
  ∃ r ∈ rs, ⟨.rawRows date, .ok rows⟩ ∈ r.exchanges

section

variable {rs rs' : List Reply} {r : Reply} {date : String} {p : Purpose} {rows : List Row}

theorem servedIn_append : servedIn (rs ++ rs') p = servedIn rs p + servedIn rs' p := by
  rw [servedIn, List.map_append, List.sum_append]
  rfl

theorem servedIn_singleton : servedIn [r] p = r.served p := by simp [servedIn]

theorem servedOn_snoc : servedOn (rs ++ [r]) date p =
    servedOn rs date p + if r.call.date = date then r.served p else 0 := by
  rw [servedOn, List.filter_append, servedIn_append]
  by_cases h : r.call.date = date
  · simp [servedOn, h, servedIn_singleton]
  · simp [servedOn, h, servedIn]

theorem Fetched.append (h : Fetched rs date rows) : Fetched (rs ++ rs') date rows := by
  obtain ⟨r, hr, hx⟩ := h
  exact ⟨r, List.mem_append_left rs' hr, hx⟩

theorem fetched_snoc (h : ⟨.rawRows date, .ok rows⟩ ∈ r.exchanges) :
    Fetched (rs ++ [r]) date rows :=
  ⟨r, List.mem_append_right rs List.mem_cons_self, h⟩

theorem servedOn_pos (hr : r ∈ rs) (h : 0 < r.served p) : 0 < servedOn rs r.call.date p := by
  have hmem : r ∈ rs.filter fun r' => r'.call.date == r.call.date :=
    List.mem_filter.mpr ⟨hr, by simp⟩
  exact List.sum_pos_iff_exists_pos_nat.mpr ⟨_, List.mem_map_of_mem hmem, h⟩

end

namespace Backtest

variable {σ : Type} {b : Backtest σ} {W : String → Timeframe → Window → Prop}
  {past : List Reply} {m m' : Memo}

def after (b : Backtest σ) : List Call → σ × Memo → σ × Memo
  | [], w => w
  | call :: calls, w => b.after calls (b.verdict call w).2

/-- What a memory holds is what the replies so far have brought about its date. -/
structure Balanced (b : Backtest σ) (W : String → Timeframe → Window → Prop) (past : List Reply)
    (m : Memo) : Prop where
  live : ∀ d, m.date? = some d → ∀ p, servedOn past d p = (m.holds d p).toNat
  later : ∀ d, (∀ c, m.date? = some c → c < d) → ∀ p, servedOn past d p = 0
  once : ∀ d p, servedOn past d p ≤ 1
  fetches : m.stats.rawFetches = servedIn past .rows
  computations : ∀ side, m.stats.computations side = servedIn past (.ids side)
  rows : ∀ e, m.entry = some e →
    ∃ rows, Fetched past e.date rows ∧ e.rows = (DayEntry.ofRows e.date rows).rows
  windows : m.Have W
  needed : ∀ r ∈ past, ∀ x ∈ r.exchanges, x.request = .rawRows r.call.date ∨
    ∃ rows, Fetched past r.call.date rows ∧ (lastRow? rows r.call.stock).isSome
  asks : ∀ r ∈ past, ∀ x ∈ r.exchanges,
    b.screener.Asks (W r.call.date) r.call.date x.request

theorem balanced_fresh : b.Balanced W [] {} where
  live := nofun
  later _ _ _ := rfl
  once _ _ := Nat.zero_le _
  fetches := rfl
  computations side := by cases side <;> rfl
  rows := nofun
  windows := nofun
  needed _ hr := absurd hr List.not_mem_nil
  asks _ hr := absurd hr List.not_mem_nil

namespace Balanced

theorem servedOn_of_le (h : b.Balanced W past m) {date : String}
    (hle : ∀ d, m.date? = some d → d ≤ date) (p : Purpose) :
    servedOn past date p = (m.holds date p).toNat := by
  by_cases hlive : m.date? = some date
  · exact h.live date hlive p
  · rw [Memo.not_holds hlive]
    refine h.later date (fun d hd => lt_of_le_of_ne (hle d hd) ?_) p
    rintro rfl
    exact hlive hd

/-- What is held of each date after a call, from what was held before it. -/
theorem servedOn_step (h : b.Balanced W past m) {r : Reply}
    (hr : ∀ p, r.served p + (m.holds r.call.date p).toNat = (m'.holds r.call.date p).toNat)
    (hlive : m'.entry = m.entry ∨
      m'.date? = some r.call.date ∧ ∀ d, m.date? = some d → d ≤ r.call.date) :
    (∀ d, m'.date? = some d → ∀ p, servedOn (past ++ [r]) d p = (m'.holds d p).toNat) ∧
      (∀ d, (∀ c, m'.date? = some c → c < d) → ∀ p, servedOn (past ++ [r]) d p = 0) ∧
      ∀ d p, servedOn (past ++ [r]) d p ≤ 1 := by
  rcases hlive with hentry | ⟨hdate, hle⟩
  · have hholds : m'.holds = m.holds := by
      funext d p
      rw [Memo.holds, Memo.holds, hentry]
    have hzero : ∀ p, r.served p = 0 := fun p => by
      have := hr p
      rw [hholds] at this
      omega
    have hsame : ∀ d p, servedOn (past ++ [r]) d p = servedOn past d p := fun d p => by
      rw [servedOn_snoc, hzero, ite_self, Nat.add_zero]
    have hdate : m'.date? = m.date? := by rw [Memo.date?, hentry, Memo.date?]
    simp only [hsame, hholds, hdate]
    exact ⟨h.live, h.later, h.once⟩
  · have hnow : ∀ p, servedOn (past ++ [r]) r.call.date p = (m'.holds r.call.date p).toNat :=
      fun p => by
        have hpast := h.servedOn_of_le hle p
        have := hr p
        rw [servedOn_snoc, if_pos rfl]
        omega
    have hother : ∀ d, r.call.date ≠ d → ∀ p, servedOn (past ++ [r]) d p = servedOn past d p :=
      fun d hd p => by rw [servedOn_snoc, if_neg hd, Nat.add_zero]
    refine ⟨fun d hd p => ?_, fun d hd p => ?_, fun d p => ?_⟩
    · cases hdate.symm.trans hd
      exact hnow p
    · have hlt := hd r.call.date hdate
      rw [hother d hlt.ne]
      exact h.later d (fun c hc => lt_of_le_of_lt (hle c hc) hlt) p
    · by_cases hd : r.call.date = d
      · rw [← hd, hnow]
        exact Bool.toNat_le _
      · rw [hother d hd]
        exact h.once d p

theorem step {τ : Type} {c : Backtest τ} (h : b.Balanced W past m) {r : Reply}
    (hr : c.Settled W r.call [] m r.exchanges m')
    (hasks : ∀ x ∈ r.exchanges, b.screener.Asks (W r.call.date) r.call.date x.request) :
    b.Balanced W (past ++ [r]) m' := by
  obtain ⟨haccounts, hneeded⟩ := hr
  have hrows : ∀ e, m'.entry = some e → ∃ rows, Fetched (past ++ [r]) e.date rows ∧
      e.rows = (DayEntry.ofRows e.date rows).rows := by
    intro e' he'
    rcases haccounts.rows e' he' with ⟨e, he, hdate, heq⟩ | ⟨rows, hmem, heq⟩
    · obtain ⟨rows, hfetched, hrows⟩ := h.rows e he
      rw [hdate, heq]
      exact ⟨rows, hfetched.append, hrows⟩
    · exact ⟨rows, fetched_snoc hmem, heq⟩
  obtain ⟨hlive, hlater, honce⟩ := h.servedOn_step (fun p => by
    have hserved := haccounts.charges.served p
    rwa [served_nil, Nat.zero_add] at hserved) haccounts.live
  refine ⟨hlive, hlater, honce, ?_, fun side => ?_, hrows, haccounts.windows h.windows, ?_, ?_⟩
  · rw [servedIn_append, servedIn_singleton, ← h.fetches, Reply.served, Nat.add_comm]
    simpa using haccounts.fetched.symm
  · rw [servedIn_append, servedIn_singleton, ← h.computations, Reply.served, Nat.add_comm]
    simpa using (haccounts.computed side).symm
  · intro r' hr' x hx
    rcases List.mem_append.mp hr' with hr' | hr'
    · rcases h.needed r' hr' x hx with hreq | ⟨rows, hfetched, hrow⟩
      · exact .inl hreq
      · exact .inr ⟨rows, hfetched.append, hrow⟩
    · cases List.mem_singleton.mp hr'
      rcases hneeded x hx with hx | hreq | ⟨e, he, hdate, hrow⟩
      · exact absurd hx List.not_mem_nil
      · exact .inl hreq
      · obtain ⟨rows, hfetched, heq⟩ := hrows e he
        refine .inr ⟨rows, hdate ▸ hfetched, ?_⟩
        rwa [← DayEntry.row?_ofRows e.date, DayEntry.row?, ← heq]
  · intro r' hr'
    rcases List.mem_append.mp hr' with hr' | hr'
    · exact h.asks r' hr'
    · cases List.mem_singleton.mp hr'
      exact hasks

theorem exists_live (h : b.Balanced W past m) {date : String} {rows : List Row}
    (hf : Fetched past date rows) : ∃ c, m.date? = some c ∧ date ≤ c := by
  obtain ⟨r, hr, hx⟩ := hf
  obtain rfl : date = r.call.date := by
    cases h.asks r hr _ hx
    rfl
  have hserved : 0 < r.served .rows := List.countP_pos_iff.mpr ⟨_, hx, rfl⟩
  by_contra hnone
  have hzero := h.later r.call.date
    (fun c hc => not_le.mp fun hle => hnone ⟨c, hc, hle⟩) .rows
  exact absurd (servedOn_pos hr hserved) (by omega)

theorem date?_iff (h : b.Balanced W past m) (date : String) :
    m.date? = some date ↔
      (∃ rows, Fetched past date rows) ∧ ∀ d rows, Fetched past d rows → d ≤ date := by
  constructor
  · intro hdate
    obtain ⟨e, he, rfl⟩ := Option.map_eq_some_iff.mp hdate
    obtain ⟨rows, hf, -⟩ := h.rows e he
    refine ⟨⟨rows, hf⟩, fun d rows' hf' => ?_⟩
    obtain ⟨c, hc, hle⟩ := h.exists_live hf'
    cases hdate.symm.trans hc
    exact hle
  · rintro ⟨⟨rows, hf⟩, hgreatest⟩
    obtain ⟨c, hc, hle⟩ := h.exists_live hf
    obtain ⟨e, he, rfl⟩ := Option.map_eq_some_iff.mp hc
    obtain ⟨rows', hf', -⟩ := h.rows e he
    rw [hc, le_antisymm hle (hgreatest e.date rows' hf')]

end Balanced

theorem asks_onStore {τ : Type} {sc : Screener σ} {store : DataStore τ}
    {W : Timeframe → Window → Prop} {anchor : String} {r : Query.Request}
    (h : (sc.onStore store).Asks W anchor r) : sc.Asks W anchor r := by
  cases h with
  | rows => exact .rows
  | hourly => exact .hourly
  | weekly => exact .weekly
  | stocks hps => exact .stocks hps

theorem refuses_onStore {τ : Type} {store : DataStore τ} {call : Call} {current : String} :
    (b.onStore store).Refuses call m current ↔ b.Refuses call m current := by
  have hrule : (b.onStore store).rule call.side = b.rule call.side := by
    cases call.side <;> rfl
  exact ⟨fun ⟨h, hf, hl, hb⟩ => ⟨hrule ▸ h, hf, hl, hb⟩,
    fun ⟨h, hf, hl, hb⟩ => ⟨hrule.symm ▸ h, hf, hl, hb⟩⟩

theorem reply_of_refuses {call : Call} {current : String} (h : b.Refuses call m current) (s : σ) :
    b.reply call (s, m) = ⟨call, .error (.outOfOrder call.date current), []⟩ := by
  have h' : (b.onStore b.screener.store.recorded).Refuses call m current := refuses_onStore.mpr h
  rw [reply, verdict_of_refuses h, verdict_of_refuses h']
  rfl

section

variable (hW : ∀ date, (b.screener.onStore b.screener.store.recorded).Resolves (W date) date)
include hW

theorem reply_settled (call : Call) (s : σ) (hm : m.Have W) :
    (b.onStore b.screener.store.recorded).Settled W call [] m (b.reply call (s, m)).exchanges
        (b.verdict call (s, m)).2.2 ∧
      ∀ requested current,
        (b.reply call (s, m)).outcome = .error (.outOfOrder requested current) →
          ∃ current, b.Refuses call m current := by
  by_cases hr : ∃ current, b.Refuses call m current
  · obtain ⟨current, hr⟩ := hr
    rw [reply_of_refuses hr, verdict_of_refuses hr]
    exact ⟨.refl, fun _ _ _ => ⟨current, hr⟩⟩
  · have hv := settled_verdict (s := s) (b := b.onStore b.screener.store.recorded)
      [] rfl hW hm call fun current h => hr ⟨current, refuses_onStore.mp h⟩
    obtain ⟨a, ⟨⟨s', log⟩, m'⟩, hx, hy⟩ :=
      (verdict_follows b.screener.store.recorded_follows call).run ((s, []), m)
    have hy' : b.verdict call (s, m) = (a, (s', m')) := hy
    simp only [Session.Ensures, hx] at hv
    simp only [reply, hx, hy']
    cases ho : a.outcome with
    | ok v =>
      rw [ho] at hv
      refine ⟨hv, ?_⟩
      rintro requested current ⟨⟩
    | error e =>
      rw [ho] at hv
      refine ⟨hv.2, ?_⟩
      rintro requested current ⟨⟩
      rcases hv.1 with ⟨fault, hfault⟩ | hrule
      · cases hfault
      · exact hrule.aboutPrompt.elim

theorem balanced_replies (calls : List Call) (s : σ) (h : b.Balanced W past m) :
    b.Balanced W (past ++ b.replies calls (s, m)) (b.after calls (s, m)).2 := by
  induction calls generalizing past s m with
  | nil =>
    rw [replies, List.append_nil]
    exact h
  | cons call calls ih =>
    obtain ⟨hsettled, -⟩ := reply_settled hW call s h.windows
    have hstep : b.Balanced W (past ++ [b.reply call (s, m)]) (b.verdict call (s, m)).2.2 := by
      refine h.step hsettled fun x hx => ?_
      obtain ⟨new, hnew, hasks⟩ := hsettled.accounts.charges.asks
      rw [List.append_nil] at hnew
      exact asks_onStore (hasks x (hnew ▸ hx))
    have hrest := ih (b.verdict call (s, m)).2.1 hstep
    rwa [List.append_assoc] at hrest

end

/-! ## Runs on a fresh memory -/

theorem resolves_true (sc : Screener σ) (anchor : String) :
    sc.Resolves (fun _ _ => True) anchor :=
  fun _ _ => Session.ensures_true

theorem replies_append (calls more : List Call) (w : σ × Memo) :
    b.replies (calls ++ more) w = b.replies calls w ++ b.replies more (b.after calls w) := by
  induction calls generalizing w with
  | nil => rfl
  | cons call calls ih => exact congrArg (List.cons _) (ih _)

theorem balanced_calls (calls : List Call) (s : σ) :
    b.Balanced (fun _ _ _ => True) (b.replies calls (s, {})) (b.after calls (s, {})).2 :=
  balanced_replies (fun _ => resolves_true _ _) calls s balanced_fresh

/-- Calls on a fresh memory ask for nothing twice. -/
structure Frugal (b : Backtest σ) (calls : List Call) (s : σ) : Prop where
  /-- The live date is the greatest one whose rows have been fetched. -/
  live : ∀ date, (b.after calls (s, {})).2.date? = some date ↔
    (∃ rows, Fetched (b.replies calls (s, {})) date rows) ∧
      ∀ d rows, Fetched (b.replies calls (s, {})) d rows → d ≤ date
  /-- More calls do not move it back. -/
  forward : ∀ more date, (b.after calls (s, {})).2.date? = some date →
    ∃ date', (b.after (calls ++ more) (s, {})).2.date? = some date' ∧ date ≤ date'
  /-- Another call fails because of the order of dates just when it is refused. -/
  refused : ∀ call, (∃ requested current, (b.reply call (b.after calls (s, {}))).outcome =
      .error (.outOfOrder requested current)) ↔
    ∃ current, b.Refuses call (b.after calls (s, {})).2 current
  /-- A call that is refused asks for nothing and changes nothing. -/
  unchanged : ∀ call current, b.Refuses call (b.after calls (s, {})).2 current →
    b.reply call (b.after calls (s, {})) = ⟨call, .error (.outOfOrder call.date current), []⟩ ∧
      (b.verdict call (b.after calls (s, {}))).2 = b.after calls (s, {})
  /-- Whatever is asked for is asked for the date of the call. -/
  asks : ∀ r ∈ b.replies calls (s, {}), ∀ x ∈ r.exchanges,
    b.screener.Asks (fun _ _ => True) r.call.date x.request
  /-- The rows of a date, each of its windows and the ids of each side are got at most once. -/
  once : ∀ date p, servedOn (b.replies calls (s, {})) date p ≤ 1
  /-- More than the rows of the date is asked for only if the stock of the call has one of them. -/
  needed : ∀ r ∈ b.replies calls (s, {}), ∀ x ∈ r.exchanges, x.request = .rawRows r.call.date ∨
    ∃ rows, Fetched (b.replies calls (s, {})) r.call.date rows ∧
      (lastRow? rows r.call.stock).isSome
  fetches : (b.after calls (s, {})).2.stats.rawFetches = servedIn (b.replies calls (s, {})) .rows
  buys : (b.after calls (s, {})).2.stats.buyComputations =
    servedIn (b.replies calls (s, {})) (.ids .buy)
  sells : (b.after calls (s, {})).2.stats.sellComputations =
    servedIn (b.replies calls (s, {})) (.ids .sell)

/-- Calls on a fresh memory are frugal, whatever the store answers and wherever it fails. -/
theorem frugal_calls (b : Backtest σ) (calls : List Call) (s : σ) : b.Frugal calls s := by
  have h := balanced_calls (b := b) calls s
  refine ⟨h.date?_iff, fun more date hdate => ?_, fun call => ⟨?_, ?_⟩, fun call current hr => ?_,
    h.asks, h.once, h.needed, h.fetches, h.computations .buy, h.computations .sell⟩
  · obtain ⟨⟨rows, hf⟩, -⟩ := (h.date?_iff date).mp hdate
    have hf' : Fetched (b.replies (calls ++ more) (s, {})) date rows := by
      rw [replies_append]
      exact hf.append
    exact (balanced_calls (calls ++ more) s).exists_live hf'
  · rintro ⟨requested, current, hfail⟩
    exact (reply_settled (fun _ => resolves_true _ _) call _ h.windows).2 requested current hfail
  · rintro ⟨current, hr⟩
    exact ⟨call.date, current, congrArg Reply.outcome (reply_of_refuses hr _)⟩
  · exact ⟨reply_of_refuses hr _, congrArg Prod.snd (verdict_of_refuses hr _)⟩

end Backtest

end StockScreen

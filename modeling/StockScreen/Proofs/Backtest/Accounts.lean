import Mathlib.Data.String.Basic
import StockScreen.Proofs.Backtest.Replies
import StockScreen.Proofs.Backtest.Requests

/-! # What one call asks for

A call asks for what its date still lacks: the rows when the date is not the
live one, then the windows and the ids of its side. What has been answered is
held from then on, whatever fails after it.
-/

namespace StockScreen

open DataStore (Exchange)

def DayEntry.holds (e : DayEntry) : Purpose → Bool
  | .rows => true
  | .ids side => (e.ids? side).isSome
  | p => e.windows.holds p

/-- What a memory holds of a date; it holds nothing of a date that is not the live one. -/
def Memo.holds (m : Memo) (date : String) (p : Purpose) : Bool :=
  m.entry.any fun e => e.date == date && e.holds p

def Memo.Have (W : String → Timeframe → Window → Prop) (m : Memo) : Prop :=
  ∀ e, m.entry = some e → e.windows.Have (W e.date)

def MemoStats.computations (m : MemoStats) : Side → Nat
  | .buy => m.buyComputations
  | .sell => m.sellComputations

namespace MemoStats

variable (m : MemoStats) (side other : Side)

@[simp] theorem rawFetches_computed : (m.computed side).rawFetches = m.rawFetches := by
  cases side <;> rfl

theorem computations_computed : (m.computed side).computations other =
    m.computations other + (Purpose.ids side == Purpose.ids other).toNat := by
  cases side <;> cases other <;> rfl

@[simp] theorem computations_fetched : m.fetched.computations side = m.computations side := by
  cases side <;> rfl

end MemoStats

def Memo.HasRow (m : Memo) (date stock : String) : Prop :=
  ∃ e, m.entry = some e ∧ e.date = date ∧ (e.row? stock).isSome

def Memo.KeepsRows (m : Memo) (e : DayEntry) : Prop :=
  ∃ e', m.entry = some e' ∧ e'.date = e.date ∧ e'.rows = e.rows

namespace Memo

variable {m : Memo} {e : DayEntry} {stats : MemoStats} {date : String}

theorem holds_some (e : DayEntry) (stats : MemoStats) :
    Memo.holds ⟨some e, stats⟩ e.date = e.holds := by
  funext p
  simp [holds]

theorem holds_of_entry (h : m.entry = some e) : m.holds e.date = e.holds := by
  obtain ⟨_, stats⟩ := m
  obtain rfl : _ = some e := h
  exact holds_some e stats

theorem not_holds (h : m.date? ≠ some date) : m.holds date = fun _ => false := by
  funext p
  cases he : m.entry with
  | none => simp [holds, he]
  | some e =>
    have hne : e.date ≠ date := fun hd => h (by rw [date?, he]; exact congrArg some hd)
    simp [holds, he, hne]

end Memo

theorem DayEntry.holds_ofRows (date : String) (rows : List Row) (p : Purpose) :
    (DayEntry.ofRows date rows).holds p = (Purpose.rows == p) := by
  rcases p with _ | _ | _ | side
  · rfl
  · rfl
  · rfl
  · cases side <;> rfl

namespace DayEntry

variable (e : DayEntry) (ws : Windows) (ids : List String) (side : Side)

theorem holds_withWindows (p : Purpose) :
    (e.holds p).toNat + (ws.holds p).toNat =
      (({ e with windows := ws } : DayEntry).holds p).toNat + (e.windows.holds p).toNat := by
  rcases p with _ | _ | _ | side
  · rfl
  · exact Nat.add_comm ..
  · exact Nat.add_comm ..
  · cases side <;> rfl

theorem holds_setIds (h : e.ids? side = none) (p : Purpose) :
    (e.holds p).toNat + (ws.holds p || Purpose.ids side == p).toNat =
      ((({ e with windows := ws } : DayEntry).setIds side ids).holds p).toNat +
        (e.windows.holds p).toNat := by
  rcases p with _ | _ | _ | other
  · cases side <;> rfl
  · have hother : (ws.holds .hourly || Purpose.ids side == .hourly) = ws.holds .hourly :=
      Bool.or_false _
    rw [hother, Nat.add_comm]
    cases side <;> rfl
  · have hother : (ws.holds .weekly || Purpose.ids side == .weekly) = ws.holds .weekly :=
      Bool.or_false _
    rw [hother, Nat.add_comm]
    cases side <;> rfl
  · cases side <;> cases other <;> simp_all [holds, ids?, setIds, Windows.holds]

end DayEntry

namespace Backtest

/-- From one log and memory to later ones: what is held has been asked for, the counters go with
the exchanges, the entry stays or becomes one for the date of the call, which is not an earlier one,
and its rows are those that were answered. -/
structure Accounted {τ : Type} (b : Backtest τ) (W : String → Timeframe → Window → Prop)
    (side : Side) (date : String) (log : List Exchange) (m : Memo) (log' : List Exchange)
    (m' : Memo) : Prop where
  charges : b.screener.Charges (W date) date side log (m.holds date) log' (m'.holds date)
  fetched : served side .rows log' + m.stats.rawFetches =
    served side .rows log + m'.stats.rawFetches
  computed : ∀ s, served side (.ids s) log' + m.stats.computations s =
    served side (.ids s) log + m'.stats.computations s
  live : m'.entry = m.entry ∨ m'.date? = some date ∧ ∀ d, m.date? = some d → d ≤ date
  rows : ∀ e', m'.entry = some e' →
    (∃ e, m.entry = some e ∧ e'.date = e.date ∧ e'.rows = e.rows) ∨
      ∃ rows, ⟨.rawRows e'.date, .ok rows⟩ ∈ log' ∧
        e'.rows = (DayEntry.ofRows e'.date rows).rows
  windows : m.Have W → m'.Have W

variable {τ : Type} {b : Backtest τ} {W : String → Timeframe → Window → Prop} {side : Side}
  {date : String} {log log' log'' : List Exchange} {m m' m'' : Memo}

namespace Accounted

theorem refl : b.Accounted W side date log m log m where
  charges := .refl
  fetched := rfl
  computed _ := rfl
  live := .inl rfl
  rows e he := .inl ⟨e, he, rfl, rfl⟩
  windows h := h

theorem trans (h : b.Accounted W side date log m log' m')
    (h' : b.Accounted W side date log' m' log'' m'') :
    b.Accounted W side date log m log'' m'' where
  charges := h.charges.trans h'.charges
  fetched := by
    have := h.fetched
    have := h'.fetched
    omega
  computed s := by
    have := h.computed s
    have := h'.computed s
    omega
  live := by
    rcases h'.live with hentry' | ⟨hdate', hle'⟩
    · rcases h.live with hentry | ⟨hdate, hle⟩
      · exact .inl (hentry'.trans hentry)
      · exact .inr ⟨by rw [Memo.date?, hentry']; exact hdate, hle⟩
    · rcases h.live with hentry | ⟨-, hle⟩
      · exact .inr ⟨hdate', fun d hd => hle' d (by rw [Memo.date?, hentry]; exact hd)⟩
      · exact .inr ⟨hdate', hle⟩
  rows e'' he'' := by
    rcases h'.rows e'' he'' with ⟨e', he', hdate', hrows'⟩ | hrows
    · rcases h.rows e' he' with ⟨e, he, hdate, hrows⟩ | ⟨rows, hmem, hrows⟩
      · exact .inl ⟨e, he, hdate'.trans hdate, hrows'.trans hrows⟩
      · obtain ⟨new, hnew, -⟩ := h'.charges.asks
        refine .inr ⟨rows, ?_, ?_⟩
        · rw [hdate', hnew]
          exact List.mem_append_right new hmem
        · rw [hrows', hrows, hdate']
    · exact .inr hrows
  windows hm := h'.windows (h.windows hm)

end Accounted

theorem accounted_update {e e' : DayEntry} {stats : MemoStats} (hm : m.entry = some e)
    (hdate : e'.date = e.date) (hrows : e'.rows = e.rows) (hwindows : e'.windows.Have (W e.date))
    (hcharges : b.screener.Charges (W e.date) e.date side log e.holds log' e'.holds)
    (hfetched : served side .rows log' + m.stats.rawFetches =
      served side .rows log + stats.rawFetches)
    (hcomputed : ∀ s, served side (.ids s) log' + m.stats.computations s =
      served side (.ids s) log + stats.computations s) :
    b.Accounted W side e.date log m log' ⟨some e', stats⟩ where
  charges := by
    rw [Memo.holds_of_entry hm, ← hdate, Memo.holds_some, hdate]
    exact hcharges
  fetched := hfetched
  computed := hcomputed
  live := by
    refine .inr ⟨congrArg some hdate, fun d hd => ?_⟩
    rw [Memo.date?, hm] at hd
    exact le_of_eq (Option.some.inj hd).symm
  rows := by
    rintro _ ⟨⟩
    exact .inl ⟨e, hm, hdate, hrows⟩
  windows _ := by
    rintro _ ⟨⟩
    rw [hdate]
    exact hwindows

theorem accounted_answered (rows : List Row) (hlive : ∀ d, m.date? = some d → d < date) :
    b.Accounted W side date log m (⟨.rawRows date, .ok rows⟩ :: log)
      ⟨some (.ofRows date rows), m.stats.fetched⟩ where
  charges := by
    have hnot : m.holds date = fun _ => false :=
      Memo.not_holds fun hd => lt_irrefl date (hlive date hd)
    have hholds : Memo.holds ⟨some (.ofRows date rows), m.stats.fetched⟩ date =
        fun p => false || Purpose.rows == p := by
      refine (Memo.holds_some (.ofRows date rows) _).trans (funext fun p => ?_)
      rw [DayEntry.holds_ofRows, Bool.false_or]
    rw [hnot, hholds]
    exact .answered .rows rfl rfl
  fetched := by
    rw [served_cons_ok (q := .rows) rows rfl]
    simp [MemoStats.fetched]
    omega
  computed s := by
    rw [served_cons_ok (q := .rows) rows rfl, MemoStats.computations_fetched]
    rfl
  live := .inr ⟨rfl, fun d hd => le_of_lt (hlive d hd)⟩
  rows := by
    rintro _ ⟨⟩
    exact .inr ⟨rows, List.mem_cons_self, rfl⟩
  windows _ := by
    rintro _ ⟨⟩
    exact Windows.have_empty

theorem accounted_failed (fault : StoreFault) :
    b.Accounted W side date log m (⟨.rawRows date, .error fault⟩ :: log) m where
  charges := .failed .rows
  fetched := by rw [served_cons_error]
  computed s := by rw [served_cons_error]
  live := .inl rfl
  rows e he := .inl ⟨e, he, rfl, rfl⟩
  windows h := h

theorem mem_or_request {r : Query.Request} {answer : Except StoreFault (List Row)} :
    ∀ x ∈ (⟨r, answer⟩ : Exchange) :: log, x ∈ log ∨ x.request = r := by
  intro x hx
  rcases List.mem_cons.mp hx with rfl | hx
  · exact .inr rfl
  · exact .inl hx

/-- The date of a call is a trading date before the live one, for a rule with prompts. -/
structure Refuses {τ : Type} (b : Backtest τ) (call : Call) (m : Memo) (current : String) :
    Prop where
  rule : (b.rule call.side).isEmpty = false
  feed : call.date ∈ b.screener.feed
  live : m.date? = some current
  before : call.date < current

theorem verdict_of_refuses {call : Call} {current : String} (h : b.Refuses call m current)
    (s : τ) : b.verdict call (s, m) = (.fail (.outOfOrder call.date current), (s, m)) := by
  obtain ⟨e, he, rfl⟩ := Option.map_eq_some_iff.mp h.live
  have henter : b.enter call.date (s, m) = (.fail (.outOfOrder call.date e.date), (s, m)) := by
    simp only [enter, he, if_pos h.before]
  rw [verdict, evaluate, if_neg (by simp [h.rule]), if_neg (by simpa using h.feed)]
  change Session.bind _ _ _ = _
  simp only [Session.bind, henter]
  rfl

def RuleFails {τ : Type} (b : Backtest τ) (side : Side) (e : ScreenError) : Prop :=
  (b.rule side).isEmpty = false ∧ (b.screener.compile (b.rule side)).outcome = .error e

theorem RuleFails.aboutPrompt {e : ScreenError} (h : b.RuleFails side e) : e.AboutPrompt := by
  rcases (b.screener.ensures_compile (b.rule side)).error e h.2 with ⟨hempty, -⟩ | ⟨-, habout⟩
  · exact absurd (h.1.symm.trans hempty) (by decide)
  · exact habout

theorem ruleFails_onStore {σ : Type} {store : DataStore σ} {e : ScreenError} :
    (b.onStore store).RuleFails side e ↔ b.RuleFails side e := by
  have hrule : (b.onStore store).rule side = b.rule side := by
    cases side <;> rfl
  have hcompile : (b.onStore store).screener.compile = b.screener.compile :=
    funext fun rule => Screener.compile_onStore store rule
  rw [RuleFails, RuleFails, hrule, hcompile]

/-- What one call does: everything is accounted for, and only for a stock with a row it asks for
more than the rows of its date. -/
structure Settled {τ : Type} (b : Backtest τ) (W : String → Timeframe → Window → Prop)
    (call : Call) (log : List Exchange) (m : Memo) (log' : List Exchange) (m' : Memo) : Prop where
  accounts : b.Accounted W call.side call.date log m log' m'
  needed : ∀ x ∈ log', x ∈ log ∨ x.request = .rawRows call.date ∨
    m'.HasRow call.date call.stock

theorem Settled.refl {call : Call} : b.Settled W call log m log m :=
  ⟨.refl, fun _ hx => .inl hx⟩

/-! ## Over a store that records its exchanges -/

variable {σ : Type} {b : Backtest (σ × List Exchange)} {store : DataStore σ}
  (hstore : b.screener.store = store.recorded) {s : σ}
include hstore

theorem accounted_load (hlive : ∀ d, m.date? = some d → d < date) :
    (b.load date).Ensures ((s, log), m)
      (fun e t => t.2.entry = some e ∧ e.date = date ∧ b.Accounted W side date log m t.1.2 t.2 ∧
        ∀ x ∈ t.1.2, x ∈ log ∨ x.request = .rawRows date)
      fun err t => (∃ fault, err = .store fault) ∧ b.Accounted W side date log m t.1.2 t.2 ∧
        ∀ x ∈ t.1.2, x ∈ log ∨ x.request = .rawRows date := by
  have hask := store.ensures_ask_recorded (.rawRows date) s log
  rw [← hstore] at hask
  cases ho : (b.screener.store.ask (.rawRows date) (s, log)).1.outcome with
  | ok rows =>
    have hlog := hask.ok ho
    simp only [Session.Ensures, load, ho, hlog]
    exact ⟨trivial, rfl, accounted_answered rows hlive, mem_or_request⟩
  | error err =>
    obtain ⟨fault, hfault, hlog⟩ := hask.error ho
    simp only [Session.Ensures, load, ho, hlog]
    exact ⟨⟨fault, hfault⟩, accounted_failed fault, mem_or_request⟩

variable (side) in
theorem accounted_enter (hlive : ∀ d, m.date? = some d → ¬ date < d) :
    (b.enter date).Ensures ((s, log), m)
      (fun e t => t.2.entry = some e ∧ e.date = date ∧ b.Accounted W side date log m t.1.2 t.2 ∧
        ∀ x ∈ t.1.2, x ∈ log ∨ x.request = .rawRows date)
      fun err t => (∃ fault, err = .store fault) ∧ b.Accounted W side date log m t.1.2 t.2 ∧
        ∀ x ∈ t.1.2, x ∈ log ∨ x.request = .rawRows date := by
  cases he : m.entry with
  | none =>
    have hmiss : ∀ d, m.date? = some d → d < date := fun d hd => by
      rw [Memo.date?, he] at hd
      cases hd
    have hload : b.enter date ((s, log), m) = b.load date ((s, log), m) := by
      simp only [enter, he]
    rw [Session.Ensures, hload]
    exact accounted_load hstore hmiss
  | some e =>
    have hdate : m.date? = some e.date := by rw [Memo.date?, he]; rfl
    have hlt := hlive e.date hdate
    rcases Decidable.em (e.date = date) with heq | heq
    · have hr : b.enter date ((s, log), m) = (pure e, ((s, log), m)) := by
        simp only [enter, he, if_neg hlt, if_pos heq]
      rw [Session.Ensures, hr]
      exact ⟨he, heq, .refl, fun x hx => .inl hx⟩
    · have hr : b.enter date ((s, log), m) = b.load date ((s, log), m) := by
        simp only [enter, he, if_neg hlt, if_neg heq]
      rw [Session.Ensures, hr]
      refine accounted_load hstore fun d hd => ?_
      cases hdate.symm.trans hd
      exact lt_of_le_of_ne (not_lt.mp hlt) heq

variable (side) in
theorem accounted_sideIds (hW : ∀ date, b.screener.Resolves (W date) date) {e : DayEntry}
    (hm : m.entry = some e) (hwindows : m.Have W) :
    (b.sideIds side e).Ensures ((s, log), m)
      (fun _ t => b.Accounted W side e.date log m t.1.2 t.2 ∧ t.2.KeepsRows e)
      fun err t => ((∃ fault, err = .store fault) ∨
          (b.screener.compile (b.rule side)).outcome = .error err) ∧
        b.Accounted W side e.date log m t.1.2 t.2 ∧ t.2.KeepsRows e := by
  cases hi : e.ids? side with
  | some ids =>
    simp only [Session.Ensures, sideIds, hi]
    exact ⟨.refl, e, hm, rfl, rfl⟩
  | none =>
    have hids := Screener.charges_idsWith (s := s) hstore log (hW e.date) side
      (hwindows e hm) (b.rule side) none
    cases ho : (b.screener.idsWith (b.rule side) e.date none ((s, log), e.windows)).1.outcome with
    | ok ids =>
      obtain ⟨hhave, hcharges⟩ := hids.ok ho
      simp only [Session.Ensures, sideIds, hi, ho]
      refine ⟨accounted_update hm (by cases side <;> rfl) (by cases side <;> rfl)
        (by cases side <;> exact hhave)
        (hcharges.lift fun p => e.holds_setIds _ ids side hi p) ?_ fun s => ?_,
        _, rfl, by cases side <;> rfl, by cases side <;> rfl⟩
      · rw [MemoStats.rawFetches_computed]
        exact congrArg (· + m.stats.rawFetches) (hcharges.served .rows)
      · have hside := hcharges.served (.ids s)
        simp only [Windows.holds, Bool.false_or, Bool.toNat_false, Nat.add_zero] at hside
        rw [MemoStats.computations_computed, ← Nat.add_assoc, Nat.add_right_comm]
        exact congrArg (· + m.stats.computations s) hside
    | error err =>
      obtain ⟨herr, hhave, hcharges⟩ := hids.error ho
      simp only [Session.Ensures, sideIds, hi, ho]
      refine ⟨herr, accounted_update hm rfl rfl hhave
        (hcharges.lift fun p => e.holds_withWindows _ p) ?_ fun s => ?_, _, rfl, rfl, rfl⟩
      · exact congrArg (· + m.stats.rawFetches) (hcharges.served .rows)
      · exact congrArg (· + m.stats.computations s) (hcharges.served (.ids s))

variable (log) in
/-- What one call does to the log and to the memory. Unless it is refused, it fails because of the
store or because of its rule. -/
theorem settled_verdict (hW : ∀ date, b.screener.Resolves (W date) date) (hm : m.Have W)
    (call : Call) (hlive : ∀ current, ¬ b.Refuses call m current) :
    (b.verdict call).Ensures ((s, log), m) (fun _ t => b.Settled W call log m t.1.2 t.2)
      fun err t => ((∃ fault, err = .store fault) ∨ b.RuleFails call.side err) ∧
        b.Settled W call log m t.1.2 t.2 := by
  rcases call with ⟨side, stock, date, waiting⟩
  rw [verdict]
  by_cases hempty : (b.rule side).isEmpty
  · rw [evaluate, if_pos hempty]
    exact .refl
  by_cases hfeed : date ∈ b.screener.feed
  · rw [evaluate, if_neg hempty, if_neg (by simpa using hfeed), Session.ensures_bind]
    have hbefore : ∀ d, m.date? = some d → ¬ date < d := fun d hd hlt =>
      hlive d ⟨by simpa using hempty, hfeed, hd, hlt⟩
    apply (accounted_enter (W := W) side hstore hbefore).mono
    · rintro e ⟨⟨t, log'⟩, m'⟩ ⟨he, rfl, haccounts, hrows⟩
      have hother : ∀ m'', ∀ x ∈ log', x ∈ log ∨ x.request = .rawRows e.date ∨
          Memo.HasRow m'' e.date stock := by
        intro m'' x hx
        rcases hrows x hx with hx | hx
        · exact .inl hx
        · exact .inr (.inl hx)
      cases hrow : e.row? stock with
      | none => exact ⟨haccounts, hother m'⟩
      | some row =>
        have hhas : ∀ m'' : Memo, m''.KeepsRows e → m''.HasRow e.date stock := by
          rintro m'' ⟨e', he', hdate, hrows'⟩
          refine ⟨e', he', hdate, ?_⟩
          rw [DayEntry.row?, hrows', ← DayEntry.row?, hrow]
          rfl
        rw [Session.ensures_bind]
        apply (accounted_sideIds side hstore hW he (haccounts.windows hm)).mono
        · rintro ids ⟨⟨u, log''⟩, m''⟩ ⟨haccounts', hkeeps⟩
          exact ⟨haccounts.trans haccounts', fun x _ => .inr (.inr (hhas m'' hkeeps))⟩
        · rintro err ⟨⟨u, log''⟩, m''⟩ ⟨herr, haccounts', hkeeps⟩
          exact ⟨herr.imp_right fun hc => ⟨by simpa using hempty, hc⟩,
            haccounts.trans haccounts', fun x _ => .inr (.inr (hhas m'' hkeeps))⟩
    · rintro err ⟨⟨t, log'⟩, m'⟩ ⟨hfault, haccounts, hrows⟩
      refine ⟨.inl hfault, haccounts, fun x hx => ?_⟩
      rcases hrows x hx with hx | hx
      · exact .inl hx
      · exact .inr (.inl hx)
  · rw [evaluate, if_neg hempty, if_pos (by simpa using hfeed)]
    exact .refl

end Backtest

end StockScreen

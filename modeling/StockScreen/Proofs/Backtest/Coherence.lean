import StockScreen.Backtest.Memo
import StockScreen.Proofs.Screening.Fresh

/-! # Verdicts with a memory

What is kept of a date never changes a verdict. Every entry of the memory is
what would be found anew, after each call, whether it was answered or failed,
and for whichever sides, stocks and dates the calls before it were.
-/

namespace StockScreen

def lastRow? (rows : List Row) (stock : String) : Option Row :=
  rows.reverse.find? fun row => row.text? entityColumn == some stock

theorem DayEntry.row?_ofRows (date : String) (rows : List Row) (stock : String) :
    (DayEntry.ofRows date rows).row? stock = lastRow? rows stock := by
  unfold row? ofRows lastRow?
  rw [← List.filterMap_reverse]
  induction rows.reverse with
  | nil => rfl
  | cons row rest ih =>
    cases ht : row.text? entityColumn with
    | none => simp [ht, ih]
    | some id =>
      by_cases hs : stock = id
      · simp [ht, hs]
      · have hs' : ¬ id = stock := fun h => hs h.symm
        simpa [ht, List.lookup_cons, beq_false_of_ne hs, hs'] using ih

def Memo.date? (m : Memo) : Option String := m.entry.map DayEntry.date

structure Call where
  side : Side
  stock : String
  date : String
  waiting : Bool

namespace Backtest

open DataStore (Faulted)

variable {σ : Type} (b : Backtest σ) (rows : Query.Request → List Row)

def qualifies (side : Side) (date stock : String) : Bool :=
  match b.screener.freshIds rows (b.rule side) date none with
  | .ok ids => ids.contains stock
  | .error _ => false

def expected (call : Call) : Option Verdict :=
  if (b.rule call.side).isEmpty ∨ call.date ∉ b.screener.feed then none
  else match lastRow? (rows (.rawRows call.date)) call.stock with
    | none => none
    | some row =>
      if call.waiting ∨ b.qualifies rows call.side call.date call.stock then
        some ⟨call.stock, call.date, row⟩
      else none

/-- What is kept of a date is what would be found anew. -/
structure Recalls (e : DayEntry) : Prop where
  rows_eq : e.rows = (DayEntry.ofRows e.date (rows (.rawRows e.date))).rows
  windows : b.screener.Coherent rows e.date e.windows
  ids : ∀ side ids, e.ids? side = some ids →
    b.screener.freshIds rows (b.rule side) e.date none = .ok ids

def Coherent (m : Memo) : Prop := ∀ e, m.entry = some e → b.Recalls rows e

/-- A memory after a call about a date: coherent, and still on its date or on that of the call. -/
structure Remembers (m : Memo) (date : String) (m' : Memo) : Prop where
  coherent : b.Coherent rows m'
  date : m'.date? = m.date? ∨ m'.date? = some date

/-- Why a call may fail: its date lies before the live one, the store fails during the call, or the
rule has prompts and does not compile. -/
def Failure (F : StoreFault → σ → Prop) (side : Side) (date : String) (m : Memo)
    (e : ScreenError) (s : σ) : Prop :=
  (∃ current, m.date? = some current ∧ date < current ∧ e = .outOfOrder date current) ∨
    Faulted F e s ∨
    (b.rule side).isEmpty = false ∧ (b.screener.compile (b.rule side)).outcome = .error e

def verdict (call : Call) : Session (σ × Memo) (Option Verdict) :=
  b.evaluate call.side call.stock call.date call.waiting

variable {b rows} {m : Memo} {s : σ} {date : String}

theorem coherent_fresh : b.Coherent rows {} := nofun

theorem coherent_some {e : DayEntry} {stats : MemoStats} (h : b.Recalls rows e) :
    b.Coherent rows ⟨some e, stats⟩ := by
  rintro _ ⟨⟩
  exact h

theorem remembers_some {e : DayEntry} {stats : MemoStats} (h : b.Recalls rows e) :
    b.Remembers rows m e.date ⟨some e, stats⟩ :=
  ⟨coherent_some h, .inr rfl⟩

theorem Coherent.remembers (h : b.Coherent rows m) (date : String) :
    b.Remembers rows m date m :=
  ⟨h, .inl rfl⟩

theorem Remembers.trans {m' m'' : Memo} (h : b.Remembers rows m' date m'')
    (h' : b.Remembers rows m date m') : b.Remembers rows m date m'' := by
  refine ⟨h.coherent, ?_⟩
  rcases h.date with hd | hd
  · rw [hd]
    exact h'.date
  · exact .inr hd

theorem recalls_ofRows (date : String) :
    b.Recalls rows (.ofRows date (rows (.rawRows date))) where
  rows_eq := rfl
  windows := Screener.coherent_empty date
  ids side ids hi := by cases side <;> cases hi

theorem Recalls.withWindows {e : DayEntry} (h : b.Recalls rows e) {ws : Windows}
    (hws : b.screener.Coherent rows e.date ws) : b.Recalls rows { e with windows := ws } where
  rows_eq := h.rows_eq
  windows := hws
  ids side ids hi := h.ids side ids (by cases side <;> exact hi)

theorem Recalls.setIds {e : DayEntry} (h : b.Recalls rows e) (side : Side) {ids : List String}
    (hids : b.screener.freshIds rows (b.rule side) e.date none = .ok ids) :
    b.Recalls rows (e.setIds side ids) where
  rows_eq := by cases side <;> exact h.rows_eq
  windows := by cases side <;> exact h.windows
  ids side' ids' hi := by
    have hother := h.ids side' ids'
    cases side <;> cases side' <;> first | exact hother hi | (cases hi; exact hids)

theorem Recalls.row? {e : DayEntry} (h : b.Recalls rows e) (stock : String) :
    e.row? stock = lastRow? (rows (.rawRows e.date)) stock := by
  rw [← DayEntry.row?_ofRows e.date, DayEntry.row?, DayEntry.row?, h.rows_eq]

section

variable {F : StoreFault → σ → Prop} (h : b.screener.store.Truthful rows F)
include h

theorem ensures_load (date : String) (m : Memo) (s : σ) :
    (b.load date).Ensures (s, m)
      (fun e t => e.date = date ∧ b.Recalls rows e ∧ t.2.entry = some e)
      fun e t => Faulted F e t.1 ∧ t.2 = m := by
  have ha := h.ensures_ask (.rawRows date) s
  cases ho : (b.screener.store.ask (.rawRows date) s).1.outcome with
  | ok xs =>
    obtain rfl := ha.ok ho
    simp only [Session.Ensures, load, ho]
    exact ⟨rfl, recalls_ofRows date, trivial⟩
  | error e =>
    simp only [Session.Ensures, load, ho]
    exact ⟨ha.error ho, trivial⟩

theorem ensures_enter (hm : b.Coherent rows m) (side : Side) (date : String) (s : σ) :
    (b.enter date).Ensures (s, m)
      (fun e t => e.date = date ∧ b.Recalls rows e ∧ t.2.entry = some e)
      fun e t => b.Failure F side date m e t.1 ∧ t.2 = m := by
  have hload : (b.load date).Ensures (s, m)
      (fun e t => e.date = date ∧ b.Recalls rows e ∧ t.2.entry = some e)
      fun e t => b.Failure F side date m e t.1 ∧ t.2 = m :=
    (ensures_load h date m s).mono (fun _ _ he => he) fun _ _ he => ⟨.inr (.inl he.1), he.2⟩
  cases he : m.entry with
  | none => simpa only [Session.Ensures, enter, he] using hload
  | some e =>
    rcases Decidable.em (date < e.date) with hlt | hlt
    · have hr : b.enter date (s, m) = (.fail (.outOfOrder date e.date), (s, m)) := by
        simp only [enter, he, if_pos hlt]
      rw [Session.Ensures, hr]
      exact ⟨.inl ⟨e.date, congrArg _ he, hlt, rfl⟩, rfl⟩
    · rcases Decidable.em (e.date = date) with heq | heq
      · have hr : b.enter date (s, m) = (pure e, (s, m)) := by
          simp only [enter, he, if_neg hlt, if_pos heq]
        rw [Session.Ensures, hr]
        exact ⟨heq, hm e he, he⟩
      · have hr : b.enter date (s, m) = b.load date (s, m) := by
          simp only [enter, he, if_neg hlt, if_neg heq]
        rw [Session.Ensures, hr]
        exact hload

theorem ensures_sideIds {e : DayEntry} (he : b.Recalls rows e) (hm : m.entry = some e)
    (side : Side) (s : σ) :
    (b.sideIds side e).Ensures (s, m)
      (fun ids t => b.screener.freshIds rows (b.rule side) e.date none = .ok ids ∧
        b.Remembers rows m e.date t.2)
      fun err t => (Faulted F err t.1 ∨ (b.screener.compile (b.rule side)).outcome = .error err) ∧
        b.Remembers rows m e.date t.2 := by
  cases hi : e.ids? side with
  | some ids =>
    simp only [Session.Ensures, sideIds, hi]
    exact ⟨he.ids side ids hi, fun e' h' => Option.some.inj (hm.symm.trans h') ▸ he, .inl rfl⟩
  | none =>
    have hs := Screener.ensures_idsWith h he.windows (b.rule side) none s
    cases ho : (b.screener.idsWith (b.rule side) e.date none (s, e.windows)).1.outcome with
    | ok ids =>
      obtain ⟨hids, hws⟩ := hs.ok ho
      rw [← Screener.freshIds_eq] at hids
      simp only [Session.Ensures, sideIds, hi, ho]
      refine ⟨hids, ?_⟩
      have hr := (he.withWindows hws).setIds side hids
      exact ⟨coherent_some hr, .inr (by cases side <;> rfl)⟩
    | error err =>
      obtain ⟨herr, hws⟩ := hs.error ho
      simp only [Session.Ensures, sideIds, hi, ho]
      exact ⟨herr, remembers_some (he.withWindows hws)⟩

/-- With a coherent memory every verdict is the one that is expected without it, and the memory
stays coherent, also when the call fails. -/
theorem ensures_verdict (hm : b.Coherent rows m) (call : Call) (s : σ) :
    (b.verdict call).Ensures (s, m)
      (fun v t => v = b.expected rows call ∧ b.Remembers rows m call.date t.2)
      fun e t => b.Failure F call.side call.date m e t.1 ∧ b.Remembers rows m call.date t.2 := by
  rcases call with ⟨side, stock, date, waiting⟩
  rw [verdict]
  by_cases hempty : (b.rule side).isEmpty
  · rw [evaluate, expected, if_pos hempty, if_pos (.inl hempty)]
    exact ⟨rfl, hm.remembers _⟩
  by_cases hfeed : date ∈ b.screener.feed
  · rw [evaluate, expected, if_neg hempty, if_neg (by simpa using hfeed),
      if_neg (not_or.mpr ⟨hempty, not_not_intro hfeed⟩), Session.ensures_bind]
    apply (ensures_enter h hm side date s).mono
    · rintro e ⟨t, m'⟩ ⟨rfl, he, hm'⟩
      have hr : b.Remembers rows m e.date m' :=
        ⟨fun _ h' => Option.some.inj (hm'.symm.trans h') ▸ he, .inr (congrArg _ hm')⟩
      rw [he.row? stock]
      cases lastRow? (rows (.rawRows e.date)) stock with
      | none => exact ⟨rfl, hr⟩
      | some row =>
        rw [Session.ensures_bind]
        apply (ensures_sideIds h he hm' side t).mono
        · rintro ids ⟨u, m''⟩ ⟨hids, hu⟩
          refine ⟨?_, hu.trans hr⟩
          simp only [qualifies, hids, Bool.or_eq_true, or_comm]
        · rintro err ⟨u, m''⟩ ⟨hf | hc, hu⟩
          · exact ⟨.inr (.inl hf), hu.trans hr⟩
          · exact ⟨.inr (.inr ⟨by simpa using hempty, hc⟩), hu.trans hr⟩
    · rintro e t ⟨hf, ht⟩
      exact ⟨hf, ht ▸ hm.remembers _⟩
  · rw [evaluate, expected, if_neg hempty, if_pos (by simpa using hfeed), if_pos (.inr hfeed)]
    exact ⟨rfl, hm.remembers _⟩

end

end Backtest

end StockScreen

import Mathlib.Data.List.Nodup
import StockScreen.Proofs.Backtest.Walk
import StockScreen.Proofs.Lists

/-! # The order of trades in time

No order fills on the date of its signal. The dates of a ledger leave a date
between the signals and the fills that follow each other, and the trades of a
book are in the order of their closing, whatever the store answers and
wherever it fails.
-/

namespace StockScreen

/-- On some date of `past`, strictly between two dates, an order was pending. -/
def SignalBetween (past : List String) (first last : String) : Prop :=
  ∃ d ∈ past, first < d ∧ d < last

theorem SignalBetween.mono {past past' : List String} {first last : String}
    (h : SignalBetween past first last) (hsub : past ⊆ past') :
    SignalBetween past' first last := by
  obtain ⟨d, hd, hlt⟩ := h
  exact ⟨d, hsub hd, hlt⟩

def Phase.Dated (past : List String) (trades : List Trade) : Phase → Prop
  | .flat => True
  | .buyPending => ∃ d ∈ past, ∀ t ∈ trades, t.exitDate < d
  | .held date _ => date ∈ past ∧ ∀ t ∈ trades, SignalBetween past t.exitDate date
  | .sellPending date _ =>
    date ∈ past ∧ (∀ t ∈ trades, SignalBetween past t.exitDate date) ∧ ∃ d ∈ past, date < d

structure Ledger.Dated (past : List String) (l : Ledger) : Prop where
  entry_mem : ∀ t ∈ l.trades, t.entryDate ∈ past
  exit_mem : ∀ t ∈ l.trades, t.exitDate ∈ past
  held : ∀ t ∈ l.trades, SignalBetween past t.entryDate t.exitDate
  flat : l.trades.Pairwise fun t u => SignalBetween past t.exitDate u.entryDate
  phase : l.phase.Dated past l.trades

namespace Ledger

variable {past past' : List String} {l : Ledger} {stock : String}

theorem dated_empty (past : List String) : ({} : Ledger).Dated past where
  entry_mem := nofun
  exit_mem := nofun
  held := nofun
  flat := .nil
  phase := trivial

theorem Dated.mono (h : l.Dated past) (hsub : past ⊆ past') : l.Dated past' where
  entry_mem t ht := hsub (h.entry_mem t ht)
  exit_mem t ht := hsub (h.exit_mem t ht)
  held t ht := (h.held t ht).mono hsub
  flat := h.flat.imp fun hs => hs.mono hsub
  phase := by
    have hp := h.phase
    cases hl : l.phase with
    | flat => trivial
    | buyPending =>
      rw [hl] at hp
      obtain ⟨d, hd, hlt⟩ := hp
      exact ⟨d, hsub hd, hlt⟩
    | held date price =>
      rw [hl] at hp
      exact ⟨hsub hp.1, fun t ht => (hp.2 t ht).mono hsub⟩
    | sellPending date price =>
      rw [hl] at hp
      obtain ⟨hm, hs, d, hd, hlt⟩ := hp
      exact ⟨hsub hm, fun t ht => (hs t ht).mono hsub, d, hsub hd, hlt⟩

theorem Dated.withPhase (h : l.Dated past) {phase : Phase} (hp : phase.Dated past l.trades) :
    Ledger.Dated past { l with phase := phase } :=
  ⟨h.entry_mem, h.exit_mem, h.held, h.flat, hp⟩

theorem Dated.close (h : l.Dated past) {t : Trade} (hentry : t.entryDate ∈ past)
    (hexit : t.exitDate ∈ past) (hheld : SignalBetween past t.entryDate t.exitDate)
    (hflat : ∀ u ∈ l.trades, SignalBetween past u.exitDate t.entryDate) :
    Ledger.Dated past ⟨.flat, l.trades ++ [t]⟩ where
  entry_mem := List.forall_mem_append.mpr ⟨h.entry_mem, by simpa using hentry⟩
  exit_mem := List.forall_mem_append.mpr ⟨h.exit_mem, by simpa using hexit⟩
  held := List.forall_mem_append.mpr ⟨h.held, by simpa using hheld⟩
  flat := List.pairwise_append.mpr ⟨h.flat, List.pairwise_singleton .., by simpa using hflat⟩
  phase := trivial

/-- A step on a later date. The date itself is where a signal may be, while a fill needs a signal
on one of the dates before. -/
theorem Dated.step (h : l.Dated past) (day : Day) (hlt : ∀ d ∈ past, d < day.date) :
    (l.step stock day).Dated (past ++ [day.date]) := by
  have hsub : past ⊆ past ++ [day.date] := List.subset_append_left ..
  have hnow : day.date ∈ past ++ [day.date] := by simp
  have h' := h.mono hsub
  have hp := h.phase
  cases hr : day.row? with
  | none => simpa only [Ledger.step, hr] using h'
  | some row =>
    cases hl : l.phase with
    | flat =>
      simp only [Ledger.step, hl, hr]
      split
      · exact h'.withPhase ⟨day.date, hnow, fun t ht => hlt _ (h.exit_mem t ht)⟩
      · exact h'
    | buyPending =>
      rw [hl] at hp
      obtain ⟨d, hd, hexit⟩ := hp
      simp only [Ledger.step, hl, hr]
      split
      · exact h'.withPhase ⟨hnow, fun t ht => ⟨d, hsub hd, hexit t ht, hlt d hd⟩⟩
      · exact h'
    | held date price =>
      rw [hl] at hp
      simp only [Ledger.step, hl, hr]
      split
      · exact h'.withPhase ⟨hsub hp.1, fun t ht => (hp.2 t ht).mono hsub, day.date, hnow,
          hlt date hp.1⟩
      · exact h'
    | sellPending date price =>
      rw [hl] at hp
      obtain ⟨hm, hflat, d, hd, hheld⟩ := hp
      simp only [Ledger.step, hl, hr]
      split
      · exact h'.close (hsub hm) hnow ⟨d, hsub hd, hheld, hlt d hd⟩
          fun u hu => (hflat u hu).mono hsub
      · exact h'

end Ledger

/-- One trade closes before another one: on an earlier date, or on the same date and with a stock
that has its turn earlier. -/
def Trade.ClosesBefore (stocks : List String) (t u : Trade) : Prop :=
  t.exitDate < u.exitDate ∨ t.exitDate = u.exitDate ∧ [t.stock, u.stock].Sublist stocks

structure Book.Chronicle (stocks past : List String) (book : Book) : Prop where
  consistent : book.Consistent
  dated : ∀ stock, (book.ledger stock).Dated past
  ordered : book.closed.Pairwise (Trade.ClosesBefore stocks)

/-- A book on a date, when the stocks of `done` have had their turns. -/
structure Book.Ongoing (stocks past : List String) (date : String) (done : List String)
    (book : Book) : Prop where
  consistent : book.Consistent
  dated : ∀ stock, (book.ledger stock).Dated (past ++ [date])
  waiting : ∀ stock ∉ done, (book.ledger stock).Dated past
  ordered : book.closed.Pairwise (Trade.ClosesBefore stocks)

namespace Book

variable {stocks past done todo : List String} {stock date : String} {book book' : Book}
  {verdict : Option Verdict}

theorem chronicle_empty (stocks past : List String) : ({} : Book).Chronicle stocks past :=
  ⟨consistent_empty, fun _ => Ledger.dated_empty past, .nil⟩

theorem Chronicle.mono {past' : List String} (h : book.Chronicle stocks past)
    (hsub : past ⊆ past') : book.Chronicle stocks past' :=
  ⟨h.consistent, fun stock => (h.dated stock).mono hsub, h.ordered⟩

theorem Chronicle.begin (h : book.Chronicle stocks past) (date : String) :
    book.Ongoing stocks past date [] :=
  ⟨h.consistent, fun stock => (h.dated stock).mono (List.subset_append_left ..),
    fun stock _ => h.dated stock, h.ordered⟩

theorem Ongoing.finish (h : book.Ongoing stocks past date done) :
    book.Chronicle stocks (past ++ [date]) :=
  ⟨h.consistent, h.dated, h.ordered⟩

theorem mem_trades_ledger {t : Trade} (ht : t ∈ book.closed) :
    t ∈ (book.ledger t.stock).trades :=
  List.mem_filter.mpr ⟨ht, by simp⟩

/-- The trades closed so far come before one that closes now: those of the same date belong to
stocks that have had their turns. -/
theorem Ongoing.closesBefore (h : book.Ongoing stocks past date done)
    (hstocks : stocks = done ++ stock :: todo) (hlt : ∀ d ∈ past, d < date) {t u : Trade}
    (hu : u ∈ book.closed) (hs : t.stock = stock) (he : t.exitDate = date) :
    u.ClosesBefore stocks t := by
  have hmem := mem_trades_ledger hu
  by_cases hd : u.stock ∈ done
  · have hx := (h.dated u.stock).exit_mem u hmem
    rcases List.mem_append.mp hx with hx | hx
    · exact .inl (he ▸ hlt _ hx)
    · refine .inr ⟨(List.mem_singleton.mp hx).trans he.symm, ?_⟩
      rw [hstocks, hs]
      exact (List.singleton_sublist.mpr hd).append
        (List.singleton_sublist.mpr List.mem_cons_self)
  · exact .inl (he ▸ hlt _ ((h.waiting u.stock hd).exit_mem u hmem))

theorem Ongoing.turn (h : book.Ongoing stocks past date done)
    (hstocks : stocks = done ++ stock :: todo) (hnd : stock ∉ done) (hlt : ∀ d ∈ past, d < date)
    (ht : book.Turn stock date verdict book') :
    book'.Ongoing stocks past date (done ++ [stock]) := by
  refine ⟨ht.consistent h.consistent, ?_, ?_, ?_⟩
  · intro x
    by_cases hx : x = stock
    · subst hx
      rw [ht.ledger_self h.consistent]
      exact (h.waiting x hnd).step (.ofVerdict date verdict) hlt
    · rw [ht.ledger_other hx]
      exact h.dated x
  · intro x hx
    obtain ⟨hx, hne⟩ : x ∉ done ∧ x ≠ stock := by simpa using hx
    rw [ht.ledger_other hne]
    exact h.waiting x hx
  · rcases ht.closed with hc | ⟨t, hs, he, hc⟩
    · rw [hc]
      exact h.ordered
    · rw [hc]
      refine List.pairwise_append.mpr ⟨h.ordered, List.pairwise_singleton .., ?_⟩
      intro u hu v hv
      rw [List.mem_singleton.mp hv]
      exact h.closesBefore hstocks hlt hu hs he

end Book

namespace Backtest

variable {σ : Type} {b : Backtest σ} {stop : σ → Bool} {stocks past dates : List String}
  {date : String} {w : σ × Memo}

/-- A date adds itself to a chronicle, also when the store fails in the middle of it. -/
theorem walkDate_chronicle {p : Progress} (hstocks : stocks.Nodup) (hlt : ∀ d ∈ past, d < date)
    (h : p.book.Chronicle stocks past) :
    (b.walkDate date stocks p).Ensures w
      (fun p' _ => p'.book.Chronicle stocks (past ++ [date])) fun _ _ => True := by
  have hstep : ∀ done stock todo (book : Book) (w : σ × Memo), stocks = done ++ stock :: todo →
      book.Ongoing stocks past date done → (b.step date stock).Ensures (w, book)
        (fun _ t => t.2.Ongoing stocks past date (done ++ [stock]))
        (Session.onFault (fun _ t => t.2.Ongoing stocks past date done) fun _ _ => True) := by
    intro done stock todo book w hd hb
    have hn : (done ++ stock :: todo).Nodup := hd ▸ hstocks
    have hnd : stock ∉ done := fun hm => pairwise_before hn stock hm rfl
    exact ensures_step_of_turn hb fun _ _ ht => hb.turn hd hnd hlt ht
  apply ensures_walkDate
  apply (ensures_walkStocks (I := fun done book _ => book.Ongoing stocks past date done)
    (J := fun done book _ => book.Ongoing stocks past date done) (E := fun _ _ => True) hstep
    (h.begin date)).mono _ fun _ _ _ => trivial
  rintro (_ | fault) t hb
  · exact hb.finish
  · obtain ⟨done, -, hb⟩ := hb
    exact hb.finish

theorem walkDates_chronicle (hstocks : stocks.Nodup) (hdates : dates.Pairwise (· < ·)) :
    (b.walkDates stop stocks dates {}).Ensures w
      (fun p _ => p.book.Chronicle stocks dates) fun _ _ => True := by
  have hdate : ∀ done date todo (p : Progress) (w : σ × Memo), dates = done ++ date :: todo →
      p.book.Chronicle stocks done → stop w.1 = false → (b.walkDate date stocks p).Ensures w
        (fun p' _ => p'.book.Chronicle stocks (done ++ [date])) fun _ _ => True := by
    intro done date todo p w hd h _
    exact walkDate_chronicle hstocks (pairwise_before (hd ▸ hdates)) h
  apply (ensures_walkDates (I := fun done p _ => p.book.Chronicle stocks done)
    (J := fun done p _ => p.book.Chronicle stocks done) (fun done p w h _ => h) hdate
    (Book.chronicle_empty stocks [])).mono _ fun _ _ _ => trivial
  rintro p t (h | ⟨done, hpre, h⟩)
  · exact h
  · exact h.mono hpre.subset

end Backtest

namespace Book

variable {stocks past : List String} {stock : String} {book : Book}

theorem Consistent.position?_of_mem (h : book.Consistent) {p : Position} (hp : p ∈ book.held) :
    book.position? p.stock = some p := by
  cases hf : book.position? p.stock with
  | none => exact absurd (List.mem_map_of_mem hp) (position?_eq_none_iff.mp hf)
  | some q =>
    have hq := mem_of_position? hf
    have hs := stock_of_position? hf
    rw [List.inj_on_of_nodup_map h.held_once hq hp hs]

theorem position?_phase (book : Book) (stock : String) :
    (book.phase stock).position? stock = book.position? stock := by
  cases hp : book.position? stock with
  | none => rw [phase_of_none hp]; split <;> rfl
  | some p =>
    rw [phase_of_some hp]
    have hs := stock_of_position? hp
    split <;> simp [Phase.position?, ← hs]

theorem openPositions_perm (book : Book) : book.openPositions.Perm book.held :=
  List.mergeSort_perm ..

theorem Consistent.openPositions_ascending (h : book.Consistent) :
    book.openPositions.Pairwise fun p q => p.stock < q.stock := by
  have hle : book.openPositions.Pairwise fun p q => p.stock ≤ q.stock := by
    refine List.Pairwise.imp of_decide_eq_true (List.pairwise_mergeSort ?_ ?_ book.held)
    · intro p q r hpq hqr
      exact decide_eq_true (String.le_trans (of_decide_eq_true hpq) (of_decide_eq_true hqr))
    · intro p q
      simpa using String.le_total p.stock q.stock
  have hne : book.openPositions.Pairwise fun p q => p.stock ≠ q.stock := by
    have hn : (book.openPositions.map Position.stock).Nodup :=
      (book.openPositions_perm.map _).nodup_iff.mpr h.held_once
    exact List.pairwise_map.mp hn
  refine (hle.and hne).imp ?_
  rintro p q ⟨hpq, hn⟩
  exact Std.lt_of_le_of_ne hpq hn

end Book

theorem pairwise_of_stocks {R : Trade → Trade → Prop} {ts : List Trade}
    (h : ∀ stock, (ts.filter (·.stock == stock)).Pairwise R) :
    ts.Pairwise fun t u => t.stock = u.stock → R t u := by
  induction ts with
  | nil => exact .nil
  | cons t ts ih =>
    refine List.pairwise_cons.mpr ⟨?_, ih fun stock => ?_⟩
    · intro u hu hs
      have ht := h t.stock
      rw [List.filter_cons_of_pos (by simp)] at ht
      exact (List.pairwise_cons.mp ht).1 u (List.mem_filter.mpr ⟨hu, by simp [hs]⟩)
    · exact (h stock).sublist ((List.sublist_cons_self t ts).filter _)

/-- What a simulation says, when `dates` are the dates of its range: every trade is open over a
date on which its sale was signalled, and between two trades of a stock, or a trade and the open
position, there is one on which the later one was signalled. -/
structure Simulation.Chronological (stocks dates : List String) (sim : Simulation) : Prop where
  entry_mem : ∀ t ∈ sim.closed, t.entryDate ∈ dates
  exit_mem : ∀ t ∈ sim.closed, t.exitDate ∈ dates
  open_mem : ∀ p ∈ sim.openPositions, p.entryDate ∈ dates
  held : ∀ t ∈ sim.closed, SignalBetween dates t.entryDate t.exitDate
  flat : sim.closed.Pairwise fun t u =>
    t.stock = u.stock → SignalBetween dates t.exitDate u.entryDate
  flat_open : ∀ t ∈ sim.closed, ∀ p ∈ sim.openPositions, t.stock = p.stock →
    SignalBetween dates t.exitDate p.entryDate
  ordered : sim.closed.Pairwise (Trade.ClosesBefore stocks)
  ascending : sim.openPositions.Pairwise fun p q => p.stock < q.stock

theorem Ledger.Dated.position {past : List String} {l : Ledger} {stock : String} {p : Position}
    (h : l.Dated past) (hp : l.phase.position? stock = some p) :
    p.entryDate ∈ past ∧ ∀ t ∈ l.trades, SignalBetween past t.exitDate p.entryDate := by
  have hd := h.phase
  cases hl : l.phase with
  | flat | buyPending => rw [hl] at hp; cases hp
  | held date price =>
    rw [hl] at hp hd
    cases hp
    exact hd
  | sellPending date price =>
    rw [hl] at hp hd
    cases hp
    exact ⟨hd.1, hd.2.1⟩

theorem Book.Chronicle.chronological {stocks past : List String} {book : Book}
    (h : book.Chronicle stocks past) (processed skipped : Nat) (cancelled : Bool)
    (stats : MemoStats) :
    Simulation.Chronological stocks past
      ⟨book.closed, book.openPositions, processed, skipped, cancelled, stats⟩ := by
  have hpos : ∀ p ∈ book.openPositions, p.entryDate ∈ past ∧
      ∀ t ∈ (book.ledger p.stock).trades, SignalBetween past t.exitDate p.entryDate := by
    intro p hp
    have hm := (book.openPositions_perm.mem_iff).mp hp
    exact (h.dated p.stock).position
      ((book.position?_phase p.stock).trans (h.consistent.position?_of_mem hm))
  exact {
    entry_mem := fun t ht => (h.dated t.stock).entry_mem t (Book.mem_trades_ledger ht)
    exit_mem := fun t ht => (h.dated t.stock).exit_mem t (Book.mem_trades_ledger ht)
    open_mem := fun p hp => (hpos p hp).1
    held := fun t ht => (h.dated t.stock).held t (Book.mem_trades_ledger ht)
    flat := pairwise_of_stocks fun stock => (h.dated stock).flat
    flat_open := fun t ht p hp hs => (hpos p hp).2 t (hs ▸ Book.mem_trades_ledger ht)
    ordered := h.ordered
    ascending := h.consistent.openPositions_ascending }

theorem datesOf_ascending {feed : List String} (hfeed : feed.Pairwise (· > ·))
    (range : DateRange) : (feed.reverse.filter range.contains).Pairwise (· < ·) :=
  (List.pairwise_reverse.mpr hfeed).sublist List.filter_sublist

namespace Backtest

/-- The book of a simulation is consistent at every point, and its result is chronological, for
every store, every memory of earlier calls, and whenever the simulation is stopped. -/
theorem simulate_chronological {σ : Type} (b : Backtest σ) (stop : σ → Bool)
    (feed stocks : List String) (range : DateRange) (w : σ × Memo)
    (hfeed : feed.Pairwise (· > ·)) (hstocks : stocks.Nodup) :
    (∀ book ∈ b.books stop feed stocks range w, book.Consistent) ∧
      ∀ sim, (b.simulate stop feed stocks range w).1.outcome = .ok sim →
        sim.Chronological stocks (feed.reverse.filter range.contains) := by
  constructor
  · exact dateBooks_all (fun _ _ _ _ _ hc ht => ht.consistent hc) _ {} w Book.consistent_empty
  · intro sim hsim
    have hs : (b.simulate stop feed stocks range).Ensures w
        (fun sim _ => sim.Chronological stocks (feed.reverse.filter range.contains))
        fun _ _ => True := by
      unfold simulate
      rw [Session.ensures_bind]
      apply (walkDates_chronicle hstocks (datesOf_ascending hfeed range)).mono _ fun _ _ he => he
      intro p t hp
      rw [Session.ensures_bind, Session.ensures_inspect]
      exact hp.chronological ..
    exact hs.ok hsim

def interrupted : Backtest Unit where
  screener :=
    { store :=
        { answer := fun r s =>
            match r with
            | .rawRows date =>
              if date = "2024-01-04" then (.error (.query "interrupted"), s)
              else (.ok [[("stock_id", .text "A"), ("c", .real 1)]], s)
            | _ => (.ok [[("stock_id", .text "A")]], s) }
      catalogs := ⟨⟨"", []⟩, ⟨"daily", [⟨"close", "c", .timeframe .raw⟩]⟩, ⟨"", []⟩, ⟨"", []⟩⟩
      settings := {}
      feed := ["2024-01-08", "2024-01-05", "2024-01-04", "2024-01-03", "2024-01-02"] }
  buy := { daily := [⟨"today", "close", ">", "custom value", "0"⟩] }
  sell := { daily := [⟨"today", "close", ">", "custom value", "0"⟩] }

/-- The date without an answer is passed over, and every fill comes after its signal. -/
theorem interrupted_chronological :
    ∃ sim, (interrupted.simulate (fun _ => false) interrupted.screener.feed ["A"] {}
        ((), {})).1.outcome = .ok sim ∧
      sim.closed.map (fun t => (t.entryDate, t.exitDate)) = [("2024-01-03", "2024-01-08")] ∧
      sim.skipped = 1 ∧ sim.Chronological ["A"] interrupted.screener.feed.reverse := by
  have hrun : (interrupted.simulate (fun _ => false) interrupted.screener.feed ["A"] {}
      ((), {})).1.outcome.toOption.map (fun sim =>
        (sim.closed.map fun t => (t.entryDate, t.exitDate), sim.skipped)) =
      some ([("2024-01-03", "2024-01-08")], 1) := by
    decide +kernel
  cases hs : (interrupted.simulate (fun _ => false) interrupted.screener.feed ["A"] {}
      ((), {})).1.outcome with
  | error e => simp [hs, Except.toOption] at hrun
  | ok sim =>
    simp only [hs, Except.toOption, Option.map_some, Option.some.injEq, Prod.mk.injEq] at hrun
    refine ⟨sim, rfl, hrun.1, hrun.2, ?_⟩
    exact (simulate_chronological interrupted (fun _ => false) interrupted.screener.feed ["A"] {}
      ((), {}) (by decide +kernel) (by decide)).2 sim hs

end Backtest

end StockScreen

import StockScreen.Proofs.Backtest.Chronology
import StockScreen.Proofs.Backtest.Coherence
import StockScreen.Proofs.Lists

/-! # Ledgers of a simulation

With a store that always gives the same answers, a simulation runs one ledger
for each stock. What a stock meets on a date is found in the answers alone, so
that neither the other stocks nor the memory of the backtest matter.
-/

namespace StockScreen

namespace Book

variable {book book' : Book} {stock date : String} {verdict : Option Verdict}

theorem Turn.waiting (h : book.Turn stock date verdict book') (side : Side) (x : String)
    (hx : x ∈ book'.waiting side) :
    x ∈ book.waiting side ∨ side = book.side stock ∧ verdict.isSome := by
  cases h with
  | passed | unpriced => exact .inl hx
  | ordered hw =>
    cases hs : book.side stock <;> cases side <;> rw [hs] at hx <;>
      first | exact .inl hx | exact .inr ⟨rfl, rfl⟩
  | filled hw hv =>
    cases hp : book.position? stock with
    | none =>
      rw [fill_of_none hp] at hx
      cases side with
      | buy => exact .inl (List.mem_filter.mp hx).1
      | sell => exact .inl hx
    | some p =>
      rw [fill_of_some hp] at hx
      cases side with
      | buy => exact .inl hx
      | sell => exact .inl (List.mem_filter.mp hx).1

theorem Consistent.openPositions_filter (h : book.Consistent) (stock : String) :
    book.openPositions.filter (·.stock == stock) = (book.position? stock).toList := by
  have hheld : book.held.filter (·.stock == stock) = (book.position? stock).toList := by
    refine filter_eq_toList_find? ((List.pairwise_map.mp h.held_once).imp ?_)
    intro p q hne hp hq
    exact hne ((eq_of_beq hp).trans (eq_of_beq hq).symm)
  have hperm := (book.openPositions_perm.filter (·.stock == stock)).trans (.of_eq hheld)
  cases hp : book.position? stock with
  | none => rw [hp] at hperm; exact hperm.eq_nil
  | some p => rw [hp] at hperm; exact hperm.eq_singleton

end Book

namespace Backtest

variable {σ : Type} (b : Backtest σ) (rows : Query.Request → List Row)

def day (stock date : String) : Day where
  date := date
  row? := lastRow? (rows (.rawRows date)) stock
  buys := b.qualifies rows .buy date stock
  sells := b.qualifies rows .sell date stock

/-- Orders are pending only for a side that has a rule. -/
def Ordered (book : Book) : Prop :=
  ∀ side stock, stock ∈ book.waiting side → (b.rule side).isEmpty = false

variable {b rows} {book book' : Book} {stock date : String}

theorem qualifies_of_isEmpty {side : Side} (h : (b.rule side).isEmpty) :
    b.qualifies rows side date stock = false := by
  have hf : b.screener.freshIds rows (b.rule side) date none = .error .noActiveConditions := by
    rw [Screener.freshIds_eq, Screener.idsFrom, Screener.compile, if_pos h]
    rfl
  rw [qualifies, hf]

/-- On a date of the feed, a verdict is expected for each row of a stock that waits or qualifies,
when only stocks of a side with a rule wait. -/
theorem expected_of_mem {call : Call} (hwait : call.waiting → (b.rule call.side).isEmpty = false)
    (hdate : call.date ∈ b.screener.feed) :
    b.expected rows call =
      if call.waiting ∨ b.qualifies rows call.side call.date call.stock then
        (lastRow? (rows (.rawRows call.date)) call.stock).map (⟨call.stock, call.date, ·⟩)
      else none := by
  cases hrule : (b.rule call.side).isEmpty with
  | true =>
    have hw : call.waiting = false := by
      by_contra hw
      simp [hwait (by simpa using hw)] at hrule
    simp [expected, hrule, hw, qualifies_of_isEmpty hrule]
  | false =>
    rw [expected, if_neg (by simp [hrule, hdate])]
    cases lastRow? (rows (.rawRows call.date)) call.stock <;> simp

/-- On a date of the feed, the expected verdict takes a ledger where the day itself takes it. -/
theorem step_expected (hb : b.Ordered book) (hdate : date ∈ b.screener.feed) :
    (book.ledger stock).step stock (.ofVerdict date (b.expected rows
      ⟨book.side stock, stock, date, book.isWaiting (book.side stock) stock⟩)) =
    (book.ledger stock).step stock (b.day rows stock date) := by
  have hwait : book.isWaiting (book.side stock) stock →
      (b.rule (book.side stock)).isEmpty = false :=
    fun hw => hb _ stock (by simpa [Book.isWaiting] using hw)
  rw [expected_of_mem hwait hdate]
  cases hp : book.position? stock with
  | none =>
    simp only [Book.side_of_none hp, Book.isWaiting_buy, List.contains_eq_mem,
      decide_eq_true_eq, Book.ledger, Book.phase_of_none hp]
    by_cases hw : stock ∈ book.waitingBuy <;>
      cases hr : lastRow? (rows (.rawRows date)) stock <;>
      cases hq : b.qualifies rows .buy date stock <;>
      simp [hw, Ledger.step, Day.ofVerdict, day, hr, hq]
  | some p =>
    simp only [Book.side_of_some hp, Book.isWaiting_sell, List.contains_eq_mem,
      decide_eq_true_eq, Book.ledger, Book.phase_of_some hp]
    by_cases hw : stock ∈ book.waitingSell <;>
      cases hr : lastRow? (rows (.rawRows date)) stock <;>
      cases hq : b.qualifies rows .sell date stock <;>
      simp [hw, Ledger.step, Day.ofVerdict, day, hr, hq]

/-- A book and a memory, when each of the stocks has met the days of its dates in `seen`, and the
live date is one of `dates`. -/
structure Tracks (b : Backtest σ) (rows : Query.Request → List Row) (stocks : List String)
    (seen : String → List String) (dates : List String) (book : Book) (m : Memo) : Prop where
  consistent : book.Consistent
  ordered : b.Ordered book
  coherent : b.Coherent rows m
  live : ∀ d, m.date? = some d → d ∈ dates
  ledger : ∀ stock ∈ stocks,
    book.ledger stock = Ledger.run stock ((seen stock).map (b.day rows stock))

variable {stocks dates : List String} {seen seen' : String → List String} {m m' : Memo}

theorem tracks_empty (stocks : List String) :
    b.Tracks rows stocks (fun _ => []) [] {} {} where
  consistent := Book.consistent_empty
  ordered := by rintro (_ | _) stock ⟨⟩
  coherent := coherent_fresh
  live := nofun
  ledger _ _ := rfl

theorem Tracks.mono (h : b.Tracks rows stocks seen dates book m) {dates' : List String}
    (hseen : ∀ x ∈ stocks, seen' x = seen x) (hdates : dates ⊆ dates') :
    b.Tracks rows stocks seen' dates' book m where
  consistent := h.consistent
  ordered := h.ordered
  coherent := h.coherent
  live d hd := hdates (h.live d hd)
  ledger stock hs := by rw [hseen stock hs, h.ledger stock hs]

theorem Tracks.turn (h : b.Tracks rows stocks seen dates book m) (hdate : date ∈ dates)
    (hfeed : date ∈ b.screener.feed)
    (ht : book.Turn stock date (b.expected rows
      ⟨book.side stock, stock, date, book.isWaiting (book.side stock) stock⟩) book')
    (hm : b.Remembers rows m date m') (hself : seen' stock = seen stock ++ [date])
    (hother : ∀ x ∈ stocks, x ≠ stock → seen' x = seen x) :
    b.Tracks rows stocks seen' dates book' m' where
  consistent := ht.consistent h.consistent
  ordered := by
    intro side x hx
    rcases ht.waiting side x hx with hx | ⟨rfl, hv⟩
    · exact h.ordered side x hx
    · by_contra hrule
      rw [expected, if_pos (.inl (by simpa using hrule))] at hv
      cases hv
  coherent := hm.coherent
  live := by
    intro d hd
    rcases hm.date with hm | hm
    · exact h.live d (hm ▸ hd)
    · cases hd.symm.trans hm
      exact hdate
  ledger := by
    intro x hx
    by_cases hs : x = stock
    · subst hs
      rw [ht.ledger_self h.consistent, step_expected h.ordered hfeed, h.ledger x hx, hself,
        List.map_append, Ledger.run, Ledger.run, List.foldl_append]
      rfl
    · rw [ht.ledger_other hs, hother x hx hs, h.ledger x hx]

section

variable (h : b.screener.store.Truthful rows fun _ _ => False)
  (hrules : ∀ side, (b.rule side).isEmpty ∨
    ∃ cs, (b.screener.compile (b.rule side)).outcome = .ok cs)
include h hrules

theorem ensures_verdict_expected (hm : b.Coherent rows m) (call : Call)
    (hlate : ∀ d, m.date? = some d → ¬ call.date < d) (s : σ) :
    (b.verdict call).Ensures (s, m)
      (fun v t => v = b.expected rows call ∧ b.Remembers rows m call.date t.2)
      fun _ _ => False := by
  apply (ensures_verdict h hm call s).mono fun _ _ hv => hv
  rintro e t ⟨⟨d, hd, hlt, -⟩ | ⟨_, _, hf⟩ | ⟨hrule, hc⟩, -⟩
  · exact hlate d hd hlt
  · exact hf
  · rcases hrules call.side with hempty | ⟨cs, hok⟩
    · simp [hrule] at hempty
    · cases hc.symm.trans hok

theorem ensures_step_tracks (ht : b.Tracks rows stocks seen dates book m) (hdate : date ∈ dates)
    (hlate : ∀ d ∈ dates, ¬ date < d) (hfeed : date ∈ b.screener.feed)
    (hself : seen' stock = seen stock ++ [date])
    (hother : ∀ x ∈ stocks, x ≠ stock → seen' x = seen x) (s : σ) :
    (b.step date stock).Ensures ((s, m), book)
      (fun _ t => b.Tracks rows stocks seen' dates t.2 t.1.2) fun _ _ => False := by
  have hv := ensures_verdict_expected h hrules ht.coherent
    ⟨book.side stock, stock, date, book.isWaiting (book.side stock) stock⟩
    (fun d hd => hlate d (ht.live d hd)) s
  apply (ensures_step hv).mono _ fun _ _ he => he.2
  rintro _ t ⟨_, ⟨rfl, hm⟩, hturn⟩
  exact ht.turn hdate hfeed hturn hm hself hother

/-- A date adds its day to what every stock has seen. -/
theorem ensures_walkDate_tracks {past : List String} {p : Progress} (hstocks : stocks.Nodup)
    (hlt : ∀ d ∈ past, d < date) (hfeed : date ∈ b.screener.feed)
    (hp : b.Tracks rows stocks (fun _ => past) past p.book m) (s : σ) :
    (b.walkDate date stocks p).Ensures (s, m)
      (fun p' t => b.Tracks rows stocks (fun _ => past ++ [date]) (past ++ [date]) p'.book t.2)
      fun _ _ => False := by
  have hnow : date ∈ past ++ [date] := by simp
  have hlate : ∀ d ∈ past ++ [date], ¬ date < d := by
    intro d hd
    rcases List.mem_append.mp hd with hd | hd
    · exact fun h => Std.lt_irrefl (String.lt_trans (hlt d hd) h)
    · rw [List.mem_singleton.mp hd]
      exact Std.lt_irrefl
  have hstep : ∀ done stock todo (book : Book) (w : σ × Memo), stocks = done ++ stock :: todo →
      b.Tracks rows stocks (fun x => if x ∈ done then past ++ [date] else past)
        (past ++ [date]) book w.2 →
      (b.step date stock).Ensures (w, book)
        (fun _ t => b.Tracks rows stocks
          (fun x => if x ∈ done ++ [stock] then past ++ [date] else past)
          (past ++ [date]) t.2 t.1.2)
        (Session.onFault (fun _ _ => False) fun _ _ => False) := by
    rintro done stock todo book ⟨s, m⟩ hd hb
    have hn : (done ++ stock :: todo).Nodup := hd ▸ hstocks
    have hnd : stock ∉ done := fun hm => pairwise_before hn stock hm rfl
    apply (ensures_step_tracks h hrules hb hnow hlate hfeed _ _ s).mono (fun _ _ hb => hb)
    · exact fun _ _ => False.elim
    · simp [hnd]
    · intro x _ hne
      simp [hne]
  apply ensures_walkDate
  apply (ensures_walkStocks (I := fun done book t => b.Tracks rows stocks
      (fun x => if x ∈ done then past ++ [date] else past) (past ++ [date]) book t.2)
    (J := fun _ _ _ => False) (E := fun _ _ => False) hstep
    (hp.mono (by simp) (by simp))).mono _ fun _ _ he => he
  rintro (_ | fault) t hb
  · exact hb.mono (by simp +contextual) (List.Subset.refl _)
  · obtain ⟨_, _, hf⟩ := hb
    exact hf.elim

theorem ensures_walkDates_tracks {stop : σ → Bool} (hstop : ∀ s, stop s = false)
    (hstocks : stocks.Nodup) (hasc : dates.Pairwise (· < ·)) (hfeed : dates ⊆ b.screener.feed)
    (s : σ) :
    (b.walkDates stop stocks dates {}).Ensures (s, {})
      (fun p t => b.Tracks rows stocks (fun _ => dates) dates p.book t.2) fun _ _ => False := by
  have hdate : ∀ done date todo (p : Progress) (w : σ × Memo), dates = done ++ date :: todo →
      b.Tracks rows stocks (fun _ => done) done p.book w.2 → stop w.1 = false →
      (b.walkDate date stocks p).Ensures w
        (fun p' t => b.Tracks rows stocks (fun _ => done ++ [date]) (done ++ [date]) p'.book t.2)
        fun _ _ => False := by
    rintro done date todo p ⟨s, m⟩ hd hp _
    exact ensures_walkDate_tracks h hrules hstocks (pairwise_before (hd ▸ hasc))
      (hfeed (by simp [hd])) hp s
  apply (ensures_walkDates (J := fun _ _ _ => False)
    (fun _ _ w _ hs => by simp [hstop w.1] at hs) hdate (tracks_empty stocks)).mono _
      fun _ _ he => he
  rintro p t (hp | ⟨_, _, hf⟩)
  · exact hp
  · exact hf.elim

end

theorem Tracks.settled (h : b.Tracks rows stocks seen dates book m) (hs : stock ∈ stocks) :
    let l := Ledger.run stock ((seen stock).map (b.day rows stock))
    book.closed.filter (·.stock == stock) = l.trades ∧
      book.openPositions.filter (·.stock == stock) = (l.phase.position? stock).toList := by
  intro l
  have hl : book.ledger stock = l := h.ledger stock hs
  refine ⟨congrArg Ledger.trades hl, ?_⟩
  rw [← hl]
  exact (h.consistent.openPositions_filter stock).trans
    (congrArg Option.toList (book.position?_phase stock).symm)

/-- With a store that always answers, and answers a request always in the same way, a simulation
that is not stopped closes for each stock the trades of its ledger, and leaves its position. -/
theorem simulate_ledgers {σ : Type} (b : Backtest σ) (rows : Query.Request → List Row)
    (stop : σ → Bool) (stocks : List String) (range : DateRange) (s : σ)
    (hanswers : ∀ r s, (b.screener.store.answer r s).1 = .ok (rows r))
    (hrules : ∀ side, (b.rule side).isEmpty ∨
      ∃ cs, (b.screener.compile (b.rule side)).outcome = .ok cs)
    (hstop : ∀ s, stop s = false) (hfeed : b.screener.feed.Pairwise (· > ·))
    (hstocks : stocks.Nodup) :
    ∃ sim, (b.simulate stop b.screener.feed stocks range (s, {})).1.outcome = .ok sim ∧
      ∀ stock ∈ stocks,
        let l := Ledger.run stock
          ((b.screener.feed.reverse.filter range.contains).map (b.day rows stock))
        sim.closed.filter (·.stock == stock) = l.trades ∧
          sim.openPositions.filter (·.stock == stock) = (l.phase.position? stock).toList := by
  have hstore : b.screener.store.Truthful rows fun _ _ => False := by
    refine ⟨fun r s xs hx => ?_, fun r s fault hf => ?_⟩
    · exact (Except.ok.inj ((hanswers r s).symm.trans hx)).symm
    · cases (hanswers r s).symm.trans hf
  have hsub : b.screener.feed.reverse.filter range.contains ⊆ b.screener.feed :=
    fun d hd => List.mem_reverse.mp (List.mem_filter.mp hd).1
  have hrun : (b.simulate stop b.screener.feed stocks range).Ensures (s, {})
      (fun sim _ => ∀ stock ∈ stocks,
        let l := Ledger.run stock
          ((b.screener.feed.reverse.filter range.contains).map (b.day rows stock))
        sim.closed.filter (·.stock == stock) = l.trades ∧
          sim.openPositions.filter (·.stock == stock) = (l.phase.position? stock).toList)
      fun _ _ => False := by
    unfold simulate
    rw [Session.ensures_bind]
    apply (ensures_walkDates_tracks hstore hrules hstop hstocks (datesOf_ascending hfeed range)
      hsub s).mono _ fun _ _ he => he
    intro p t hp
    rw [Session.ensures_bind, Session.ensures_inspect]
    exact fun stock hs => hp.settled hs
  exact hrun.exists_ok.imp fun _ hv => hv

def steadyRows : Query.Request → List Row
  | .rawRows date =>
    [[("stock_id", .text "A"), ("c", if date = "2024-01-04" then .null else .real 1)],
      [("stock_id", .text "B"), ("c", .real 2)]]
  | _ => [[("stock_id", .text "A")]]

def steady : Backtest Unit where
  screener :=
    { store := .fixed steadyRows
      catalogs := ⟨⟨"", []⟩, ⟨"daily", [⟨"close", "c", .timeframe .raw⟩]⟩, ⟨"", []⟩, ⟨"", []⟩⟩
      settings := {}
      feed := ["2024-01-08", "2024-01-05", "2024-01-04", "2024-01-03", "2024-01-02"] }
  buy := { daily := [⟨"today", "close", ">", "custom value", "0"⟩] }
  sell := { daily := [⟨"today", "close", ">", "custom value", "0"⟩] }

/-- The ledger of a stock that is bought, and sold two dates later. -/
theorem steady_ledger :
    ∃ sim, (steady.simulate (fun _ => false) steady.screener.feed ["A", "B"] {}
        ((), {})).1.outcome = .ok sim ∧
      (sim.closed.filter (·.stock == "A")).map (fun t => (t.entryDate, t.exitDate)) =
        [("2024-01-03", "2024-01-05")] := by
  have hrules : ∀ side, (steady.rule side).isEmpty ∨
      ∃ cs, (steady.screener.compile (steady.rule side)).outcome = .ok cs := by
    intro side
    cases side <;> exact .inr ⟨_, rfl⟩
  obtain ⟨sim, hs, hl⟩ := simulate_ledgers steady steadyRows (fun _ => false) ["A", "B"] {} ()
    (fun _ _ => rfl) hrules (fun _ => rfl) (by decide +kernel) (by decide)
  refine ⟨sim, hs, ?_⟩
  rw [(hl "A" (by decide)).1]
  decide +kernel

end Backtest

end StockScreen

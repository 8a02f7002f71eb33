import StockScreen.Proofs.Backtest.Walk
import StockScreen.Proofs.Lists

/-! # Dates that a fault ends early

A fault of the store in the middle of a date leaves the book as the stocks that
had their turns have made it. The date counts as skipped, every other stock
keeps its position and its orders, and the simulation goes on with the next
date.
-/

namespace StockScreen

namespace Backtest

variable {σ : Type}

def resume (b : Backtest σ) (stop : σ → Bool) (stocks dates : List String) (p : Progress) :
    Session (σ × Memo) Simulation := do
  let p ← b.walkDates stop stocks dates p
  let stats ← .inspect fun (_, m) => m.stats
  pure ⟨p.book.closed, p.book.openPositions, p.processed, p.skipped, p.cancelled, stats⟩

/-- A fault of the store in a walk over dates: the dates of `past` have been walked, on the next
one the stocks of `served` have had their turns, and the one after them meets the fault. -/
structure Interruption (b : Backtest σ) (stop : σ → Bool) (stocks dates : List String)
    (w : σ × Memo) where
  past : List String
  date : String
  rest : List String
  progress : Progress
  start : σ × Memo
  served : List String
  stock : String
  waiting : List String
  book : Book
  reached : σ × Memo
  fault : StoreFault
  left : σ × Memo
  bookLeft : Book
  dates_eq : dates = past ++ date :: rest
  stocks_eq : stocks = served ++ stock :: waiting
  walked : (b.walkDates stop stocks past {}).result w = (.ok progress, start)
  running : progress.cancelled = false ∧ stop start.1 = false
  stepped : (b.walkStocks date served).result (start, progress.book) = (.ok none, reached, book)
  failed : (b.step date stock).result (reached, book) = (.error (.store fault), left, bookLeft)

variable {b : Backtest σ} {stop : σ → Bool} {stocks dates done todo : List String} {date : String}
  {book book' : Book} {p q : Progress} {w w' : σ × Memo}

/-- A step that fails, for whatever reason, leaves the book as it was. -/
theorem step_error_frame {stock : String} {e : ScreenError} {t : σ × Memo}
    (h : (b.step date stock).result (w, book) = (.error e, t, book')) : book' = book := by
  have hframe := (step_turn b date stock book w).error (congrArg Prod.fst h)
  rwa [Session.state_of_result h] at hframe

theorem walkStocks_cons_of_ok {stock : String} {t t' : (σ × Memo) × Book}
    (h : (b.step date stock).result t = (.ok (), t')) :
    (b.walkStocks date (stock :: todo)).result t = (b.walkStocks date todo).result t' := by
  rw [walkStocks, Session.result_bind_of_ok (Session.result_attempt_of_ok h)]

theorem walkStocks_cons_of_fault {stock : String} {t t' : (σ × Memo) × Book} {fault : StoreFault}
    (h : (b.step date stock).result t = (.error (.store fault), t')) :
    (b.walkStocks date (stock :: todo)).result t = (.ok (some fault), t') := by
  rw [walkStocks, Session.result_bind_of_ok (Session.result_attempt_of_fault h),
    Session.result_pure]

theorem walkStocks_append {t t' : (σ × Memo) × Book}
    (h : (b.walkStocks date done).result t = (.ok none, t')) :
    (b.walkStocks date (done ++ todo)).result t = (b.walkStocks date todo).result t' := by
  induction done generalizing t with
  | nil => cases h; rfl
  | cons stock done ih =>
    have hwalk := h
    rw [walkStocks] at hwalk
    obtain ⟨r, u, hr, -⟩ := Session.exists_of_result_bind hwalk
    rcases Session.of_result_attempt hr with ⟨⟨⟩, -, hs⟩ | ⟨fault, -, hs⟩
    · rw [walkStocks_cons_of_ok hs] at h
      rw [List.cons_append, walkStocks_cons_of_ok hs]
      exact ih h
    · rw [walkStocks_cons_of_fault hs] at h
      cases h

theorem walkDates_cons_of_running (h : stop w.1 = false) :
    (b.walkDates stop stocks (date :: todo) p).result w =
      (b.walkDate date stocks p >>= b.walkDates stop stocks todo).result w := by
  rw [walkDates, Session.result_bind_of_ok (Session.result_inspect _), if_neg (by simp [h])]

theorem walkDates_append (h : (b.walkDates stop stocks done p).result w = (.ok q, w'))
    (hq : q.cancelled = false) :
    (b.walkDates stop stocks (done ++ todo) p).result w =
      (b.walkDates stop stocks todo q).result w' := by
  rw [walkDates_eq_under] at h ⊢
  rw [walkDatesUnder_append todo h hq, walkDates_eq_under]

theorem walkDates_consistent (h : p.book.Consistent) :
    (b.walkDates stop stocks dates p).Ensures w (fun q _ => q.book.Consistent) fun _ _ => True := by
  have hdate : ∀ done date todo (p : Progress) (w : σ × Memo), dates = done ++ date :: todo →
      p.book.Consistent → stop w.1 = false → (b.walkDate date stocks p).Ensures w
        (fun q _ => q.book.Consistent) fun _ _ => True :=
    fun _ _ _ _ _ _ hp _ => walkDate_keeps (fun _ _ _ _ _ hc ht => ht.consistent hc) hp
  apply (ensures_walkDates (I := fun _ p _ => p.book.Consistent)
    (J := fun _ p _ => p.book.Consistent) (fun _ _ _ hp _ => hp) hdate h).mono _
      fun _ _ _ => trivial
  rintro q t (hq | ⟨-, -, hq⟩)
  · exact hq
  · exact hq

/-- A book on which the stocks of `done` have had one turn each since the date began. -/
structure Advanced (date : String) (done : List String) (book book' : Book) : Prop where
  consistent : book'.Consistent
  turned : ∀ stock ∈ done, ∃ verdict,
    book'.ledger stock = (book.ledger stock).step stock (.ofVerdict date verdict)
  kept : ∀ stock ∉ done, book'.ledger stock = book.ledger stock

theorem Advanced.turn {book₀ : Book} {stock : String} {verdict : Option Verdict}
    (h : Advanced date done book₀ book) (hnew : stock ∉ done)
    (ht : book.Turn stock date verdict book') : Advanced date (done ++ [stock]) book₀ book' where
  consistent := ht.consistent h.consistent
  turned := by
    intro x hx
    rcases List.mem_append.mp hx with hx | hx
    · have hne : x ≠ stock := fun hxs => hnew (hxs ▸ hx)
      rw [ht.ledger_other hne]
      exact h.turned x hx
    · rw [List.mem_singleton.mp hx, ht.ledger_self h.consistent, h.kept stock hnew]
      exact ⟨verdict, rfl⟩
  kept := by
    intro x hx
    obtain ⟨hx, hne⟩ : x ∉ done ∧ x ≠ stock := by simpa using hx
    rw [ht.ledger_other hne]
    exact h.kept x hx

/-- When all stocks have their turns, each ledger takes a step of its own. -/
theorem walkStocks_advanced (hstocks : stocks.Nodup) (h : book.Consistent)
    (hwalk : (b.walkStocks date stocks).result (w, book) = (.ok none, w', book')) :
    Advanced date stocks book book' := by
  have hstep : ∀ done stock todo (book₁ : Book) (w : σ × Memo), stocks = done ++ stock :: todo →
      Advanced date done book book₁ → (b.step date stock).Ensures (w, book₁)
        (fun _ t => Advanced date (done ++ [stock]) book t.2)
        (Session.onFault (fun _ _ => True) fun _ _ => True) := by
    intro done stock todo book₁ w hd hb
    have hn : (done ++ stock :: todo).Nodup := hd ▸ hstocks
    have hnew : stock ∉ done := fun hm => pairwise_before hn stock hm rfl
    exact ensures_step_of_turn (P := fun _ => True) trivial fun _ _ ht => hb.turn hnew ht
  have hall := ensures_walkStocks (I := fun done book' _ => Advanced date done book book')
    (J := fun _ _ _ => True) (E := fun _ _ => True) (w := w) hstep
    ⟨h, fun x hx => absurd hx List.not_mem_nil, fun _ _ => rfl⟩
  exact hall.of_result hwalk

namespace Interruption

variable {range : DateRange} (i : b.Interruption stop stocks dates w)

/-- What the progress is to be after the date on which the store failed: the turns before the
fault have made its book. -/
def after : Progress := { i.progress with book := i.book, skipped := i.progress.skipped + 1 }

theorem walkDate_eq :
    (b.walkDate i.date stocks i.progress).result i.start = (.ok i.after, i.left) := by
  have hstocks : (b.walkStocks i.date (i.served ++ i.stock :: i.waiting)).result
      (i.start, i.progress.book) = (.ok (some i.fault), i.left, i.bookLeft) :=
    (walkStocks_append i.stepped).trans (walkStocks_cons_of_fault i.failed)
  rw [← i.stocks_eq, step_error_frame i.failed] at hstocks
  rw [walkDate, Session.result_bind_of_ok (Session.result_lending_of_ok hstocks)]
  rfl

theorem walkDates_eq (todo : List String) :
    (b.walkDates stop stocks (i.past ++ i.date :: todo) {}).result w =
      (b.walkDates stop stocks todo i.after).result i.left := by
  rw [walkDates_append i.walked i.running.1, walkDates_cons_of_running i.running.2,
    Session.result_bind_of_ok i.walkDate_eq]

end Interruption

/-- When the store fails in the middle of a date, the book stays as the stocks before have made it:
each of them has had one whole turn, and all others keep their ledgers. The date counts as skipped,
and the simulation is the one that goes on with the next date. The failing step itself never changes
the book, whatever its error is. -/
theorem interruption_keeps_book {σ : Type} (b : Backtest σ) (stop : σ → Bool)
    (feed stocks : List String) (range : DateRange) (w : σ × Memo) (hstocks : stocks.Nodup)
    (i : b.Interruption stop stocks (feed.reverse.filter range.contains) w) :
    (∀ date stock book u e t book',
      (b.step date stock).result (u, book) = (.error e, t, book') → book' = book) ∧
      (b.walkDates stop stocks (i.past ++ [i.date]) {}).result w = (.ok i.after, i.left) ∧
      (b.simulate stop feed stocks range).result w =
        (b.resume stop stocks i.rest i.after).result i.left ∧
      (∀ stock ∈ i.served, ∃ verdict, i.after.book.ledger stock =
        (i.progress.book.ledger stock).step stock (.ofVerdict i.date verdict)) ∧
      ∀ stock ∉ i.served, i.after.book.ledger stock = i.progress.book.ledger stock := by
  have hconsistent : i.progress.book.Consistent :=
    (walkDates_consistent Book.consistent_empty).of_result i.walked
  have hserved : i.served.Nodup := by
    rw [i.stocks_eq] at hstocks
    exact (List.nodup_append.mp hstocks).1
  have hadvanced := walkStocks_advanced hserved hconsistent i.stepped
  refine ⟨fun _ _ _ _ _ _ _ => step_error_frame, i.walkDates_eq [], ?_, hadvanced.turned,
    hadvanced.kept⟩
  have hrest := i.walkDates_eq i.rest
  rw [← i.dates_eq] at hrest
  exact Session.result_bind_congr hrest

def closeOf (stock : String) : Row := [("stock_id", .text stock), ("c", .real 1)]

/-- Two stocks, and a store that fails when it is asked for what to buy on the third date. -/
def unreliable : Backtest Nat where
  screener :=
    { store :=
        { answer := fun r n =>
            (match r with
              | .rawRows _ => .ok [closeOf "A", closeOf "B"]
              | _ =>
                if n = 6 then .error (.query "timeout")
                else .ok [closeOf (if n = 3 then "B" else "A")], n + 1) }
      catalogs := ⟨⟨"", []⟩, ⟨"daily", [⟨"close", "c", .timeframe .raw⟩]⟩, ⟨"", []⟩, ⟨"", []⟩⟩
      settings := {}
      feed := ["2024-01-05", "2024-01-04", "2024-01-03", "2024-01-02"] }
  buy := { daily := [⟨"today", "close", ">", "custom value", "0"⟩] }
  sell := { daily := [⟨"today", "close", ">", "custom value", "0"⟩] }

def unreliable.thirdDate :
    Session (Nat × Memo) ((Bool × Nat × Nat) × (List String × List String × Bool) × Bool) := do
  let p ← unreliable.walkDates (fun _ => false) ["A", "B"] ["2024-01-02", "2024-01-03"] {}
  let (fault?, book) ← (unreliable.walkStocks "2024-01-04" ["A"]).lending p.book
  let (x, _) ← (unreliable.step "2024-01-04" "B").attempt.lending book
  pure ((p.cancelled, p.processed, p.skipped), (book.waitingBuy, book.waitingSell, fault?.isNone),
    x.isOk)

/-- The first stock gets its signal to sell, and the order to buy the second one stays pending. -/
theorem unreliable_keeps_orders :
    ∃ i : unreliable.Interruption (fun _ => false) ["A", "B"]
        (unreliable.screener.feed.reverse.filter (DateRange.contains {})) (0, {}),
      (i.past, i.date, i.rest) = (["2024-01-02", "2024-01-03"], "2024-01-04", ["2024-01-05"]) ∧
      (i.bookLeft.waitingBuy, i.bookLeft.waitingSell, i.after.processed, i.after.skipped) =
        (["B"], ["A"], 2, 1) ∧
      (unreliable.simulate (fun _ => false) unreliable.screener.feed ["A", "B"] {}).result (0, {}) =
        (unreliable.resume (fun _ => false) ["A", "B"] i.rest i.after).result i.left := by
  have hrun : (unreliable.thirdDate (0, {})).1.outcome.toOption =
      some ((false, 2, 0), (["B"], ["A"], true), false) := by
    decide +kernel
  cases ho : (unreliable.thirdDate (0, {})).1.outcome with
  | error e => simp [ho, Except.toOption] at hrun
  | ok v =>
    obtain rfl : v = _ := by simpa [ho, Except.toOption] using hrun
    obtain ⟨left, hthird⟩ := Session.exists_result ho
    obtain ⟨p, start, hwalked, h⟩ := Session.exists_of_result_bind hthird
    obtain ⟨⟨fault?, book⟩, reached, hlent, h⟩ := Session.exists_of_result_bind h
    have hstepped := Session.of_result_lending hlent
    obtain ⟨⟨x, bookLeft⟩, left', hlent', h⟩ := Session.exists_of_result_bind h
    have hx := Session.of_result_lending hlent'
    simp only [Session.result_pure, Prod.mk.injEq, Except.ok.injEq] at h
    obtain ⟨⟨⟨hcancelled, hprocessed, hskipped⟩, ⟨hbuy, hsell, hnone⟩, hfault⟩, rfl⟩ := h
    obtain rfl : fault? = none := Option.isNone_iff_eq_none.mp hnone
    rcases Session.of_result_attempt hx with ⟨_, rfl, -⟩ | ⟨fault, rfl, hfailed⟩
    · cases hfault
    · let i : unreliable.Interruption (fun _ => false) ["A", "B"]
          (unreliable.screener.feed.reverse.filter (DateRange.contains {})) (0, {}) :=
        { past := ["2024-01-02", "2024-01-03"], date := "2024-01-04", rest := ["2024-01-05"],
          progress := p, start := start, served := ["A"], stock := "B", waiting := [],
          book := book, reached := reached, fault := fault, left := left', bookLeft := bookLeft,
          dates_eq := rfl, stocks_eq := rfl, walked := hwalked, running := ⟨hcancelled, rfl⟩,
          stepped := hstepped, failed := hfailed }
      obtain ⟨hframe, -, hresumed, -⟩ := interruption_keeps_book unreliable (fun _ => false)
        unreliable.screener.feed ["A", "B"] {} (0, {}) (by decide) i
      refine ⟨i, rfl, ?_, hresumed⟩
      rw [hframe _ _ _ _ _ _ _ i.failed]
      simp only [Interruption.after, i, hbuy, hsell, hprocessed, hskipped]

end Backtest

end StockScreen

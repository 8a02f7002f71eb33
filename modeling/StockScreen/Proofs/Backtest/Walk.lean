import StockScreen.Backtest.Simulation
import StockScreen.Proofs.Backtest.Ledger
import StockScreen.Proofs.Session.Result

/-! # Walks over stocks and dates

What one turn or one date keeps holds along the whole walk. A walk over stocks
ends early at a fault of the store, a walk over dates when it is stopped, so
that an invariant speaks about the part that has been walked.
-/

namespace StockScreen

namespace Backtest

variable {σ : Type} {b : Backtest σ} {date stock : String} {stocks dates : List String}
  {book : Book} {w : σ × Memo} {stop : σ → Bool} {flag : String → σ → Bool}
  {E : ScreenError → σ × Memo → Prop}

/-- Whatever the store answers, a step is a turn of its stock. Without a verdict it fails, and the
book is the one before it. -/
theorem ensures_step {Q : Option Verdict → σ × Memo → Prop}
    (h : (b.evaluate (book.side stock) stock date
      (book.isWaiting (book.side stock) stock)).Ensures w Q E) :
    (b.step date stock).Ensures (w, book)
      (fun _ t => ∃ verdict, Q verdict t.1 ∧ book.Turn stock date verdict t.2)
      fun e t => t.2 = book ∧ E e t.1 := by
  -- Only the evaluation can fail, and it comes before the one change of the book.
  unfold step
  rw [Session.ensures_bind, Session.ensures_inspect, Session.ensures_bind,
    Session.ensures_onFirst]
  apply h.mono _ fun _ _ he => ⟨rfl, he⟩
  intro verdict t hQ
  obtain ⟨book', ho, ht⟩ := book.record_turn stock date verdict
  rw [Session.ensures_bind]
  refine Session.ensures_ofNoted ?_ ?_
  · intro v hv
    cases ho.symm.trans hv
    exact ⟨verdict, hQ, ht⟩
  · intro e he
    cases ho.symm.trans he

variable (b date stock w book) in
theorem step_turn : (b.step date stock).Ensures (w, book)
    (fun _ t => ∃ verdict, book.Turn stock date verdict t.2) fun _ t => t.2 = book := by
  apply (ensures_step Session.ensures_true).mono
  · rintro _ t ⟨verdict, -, ht⟩
    exact ⟨verdict, ht⟩
  · rintro e t ⟨hbook, -⟩
    exact hbook

theorem ensures_step_of_turn {P Q : Book → Prop} (hP : P book)
    (hQ : ∀ verdict book', book.Turn stock date verdict book' → Q book') :
    (b.step date stock).Ensures (w, book) (fun _ t => Q t.2)
      (Session.onFault (fun _ t => P t.2) fun _ _ => True) := by
  apply (step_turn b date stock book w).mono
  · rintro _ t ⟨verdict, ht⟩
    exact hQ verdict t.2 ht
  · intro e t hbook
    cases e with
    | store fault => exact (congrArg P hbook).mpr hP
    | _ => trivial

/-- The invariant `I` speaks about the stocks that have had their turn, and `J` about a walk that a
fault of the store has ended. -/
theorem ensures_walkStocks {I J : List String → Book → σ × Memo → Prop}
    (hstep : ∀ done stock todo book w, stocks = done ++ stock :: todo → I done book w →
      (b.step date stock).Ensures (w, book) (fun _ t => I (done ++ [stock]) t.2 t.1)
        (Session.onFault (fun _ t => J done t.2 t.1) fun e t => E e t.1))
    (h : I [] book w) :
    (b.walkStocks date stocks).Ensures (w, book)
      (fun fault t => match fault with
        | none => I stocks t.2 t.1
        | some _ => ∃ done, done <+: stocks ∧ J done t.2 t.1) fun e t => E e t.1 := by
  suffices key : ∀ todo done book w, stocks = done ++ todo → I done book w →
      (b.walkStocks date todo).Ensures (w, book)
        (fun fault t => match fault with
          | none => I stocks t.2 t.1
          | some _ => ∃ done, done <+: stocks ∧ J done t.2 t.1) fun e t => E e t.1 from
    key stocks [] book w rfl h
  intro todo
  induction todo with
  | nil =>
    intro done book w hd hI
    rw [List.append_nil] at hd
    exact hd ▸ hI
  | cons stock todo ih =>
    intro done book w hd hI
    rw [walkStocks, Session.ensures_bind, Session.ensures_attempt]
    apply (hstep done stock todo book w hd hI).mono
    · intro _ t hI'
      exact ih (done ++ [stock]) t.2 t.1 (by simpa using hd) hI'
    · intro e t he
      cases e with
      | store fault => exact ⟨done, hd ▸ List.prefix_append .., he⟩
      | _ => exact he

/-- The dates in turn, up to one before which the flag is seen raised. Since it may be raised from
outside between any two looks, what a look sees depends on its date as well. -/
def walkDatesUnder (b : Backtest σ) (flag : String → σ → Bool) (stocks : List String) :
    List String → Progress → Session (σ × Memo) Progress
  | [], p => pure p
  | date :: dates, p => do
    if ← .inspect fun (s, _) => flag date s then
      pure { p with cancelled := true }
    else
      let p ← b.walkDate date stocks p
      walkDatesUnder b flag stocks dates p

theorem walkDates_eq_under :
    b.walkDates stop stocks dates = b.walkDatesUnder (fun _ => stop) stocks dates := by
  induction dates with
  | nil => rfl
  | cons date dates ih =>
    funext p
    rw [walkDates, walkDatesUnder, ih]

theorem walkDatesUnder_cons_of_running {p : Progress} (h : flag date w.1 = false) :
    (b.walkDatesUnder flag stocks (date :: dates) p).result w =
      (b.walkDate date stocks p >>= b.walkDatesUnder flag stocks dates).result w := by
  rw [walkDatesUnder, Session.result_bind_of_ok (Session.result_inspect _), if_neg (by simp [h])]

theorem walkDatesUnder_cons_of_raised {p : Progress} (h : flag date w.1 = true) :
    (b.walkDatesUnder flag stocks (date :: dates) p).result w =
      (.ok { p with cancelled := true }, w) := by
  rw [walkDatesUnder, Session.result_bind_of_ok (Session.result_inspect _), if_pos h]
  rfl

theorem walkDatesUnder_append {done : List String} (todo : List String) {p q : Progress}
    {w' : σ × Memo} (h : (b.walkDatesUnder flag stocks done p).result w = (.ok q, w'))
    (hq : q.cancelled = false) :
    (b.walkDatesUnder flag stocks (done ++ todo) p).result w =
      (b.walkDatesUnder flag stocks todo q).result w' := by
  induction done generalizing p w with
  | nil => cases h; rfl
  | cons date done ih =>
    cases hs : flag date w.1 with
    | true =>
      rw [walkDatesUnder_cons_of_raised hs] at h
      cases h
      cases hq
    | false =>
      rw [walkDatesUnder_cons_of_running hs] at h
      obtain ⟨p', t, hp, hdone⟩ := Session.exists_of_result_bind h
      rw [List.cons_append, walkDatesUnder_cons_of_running hs, Session.result_bind_of_ok hp]
      exact ih hdone

/-- The invariant `I` speaks about the dates that have been walked, and `J` about a walk that was
stopped before one of them. -/
theorem ensures_walkDatesUnder {I J : List String → Progress → σ × Memo → Prop}
    (hcancel : ∀ done date p w, I done p w → flag date w.1 → J done { p with cancelled := true } w)
    (hdate : ∀ done date todo p w, dates = done ++ date :: todo → I done p w →
      flag date w.1 = false → (b.walkDate date stocks p).Ensures w (I (done ++ [date])) E)
    {p : Progress} (h : I [] p w) :
    (b.walkDatesUnder flag stocks dates p).Ensures w
      (fun p' t => I dates p' t ∨ ∃ done date todo, dates = done ++ date :: todo ∧ J done p' t)
      E := by
  suffices key : ∀ todo done p w, dates = done ++ todo → I done p w →
      (b.walkDatesUnder flag stocks todo p).Ensures w
        (fun p' t => I dates p' t ∨ ∃ done date todo, dates = done ++ date :: todo ∧ J done p' t)
        E from
    key dates [] p w rfl h
  intro todo
  induction todo with
  | nil =>
    intro done p w hd hI
    rw [List.append_nil] at hd
    exact .inl (hd ▸ hI)
  | cons date todo ih =>
    rintro done p ⟨s, m⟩ hd hI
    rw [walkDatesUnder, Session.ensures_bind, Session.ensures_inspect]
    cases hs : flag date s with
    | true =>
      simp only [hs, if_true, Session.ensures_pure]
      exact .inr ⟨done, date, todo, hd, hcancel done date p (s, m) hI hs⟩
    | false =>
      simp only [hs, Bool.false_eq_true, if_false, Session.ensures_bind]
      apply (hdate done date todo p (s, m) hd hI hs).mono _ fun _ _ he => he
      intro p' t hI'
      exact ih (done ++ [date]) p' t (by simpa using hd) hI'

theorem ensures_walkDates {I J : List String → Progress → σ × Memo → Prop}
    (hcancel : ∀ done p w, I done p w → stop w.1 → J done { p with cancelled := true } w)
    (hdate : ∀ done date todo p w, dates = done ++ date :: todo → I done p w →
      stop w.1 = false → (b.walkDate date stocks p).Ensures w (I (done ++ [date])) E)
    {p : Progress} (h : I [] p w) :
    (b.walkDates stop stocks dates p).Ensures w
      (fun p' t => I dates p' t ∨ ∃ done, done <+: dates ∧ J done p' t) E := by
  rw [walkDates_eq_under]
  apply (ensures_walkDatesUnder (fun done _ => hcancel done) hdate h).mono _ fun _ _ he => he
  rintro p' t (hI | ⟨done, date, todo, hd, hJ⟩)
  · exact .inl hI
  · exact .inr ⟨done, hd ▸ List.prefix_append .., hJ⟩

theorem ensures_walkDate {p : Progress} {Q : Progress → σ × Memo → Prop}
    (h : (b.walkStocks date stocks).Ensures (w, p.book)
      (fun fault t => match fault with
        | none => Q { p with book := t.2, processed := p.processed + 1 } t.1
        | some _ => Q { p with book := t.2, skipped := p.skipped + 1 } t.1) fun e t => E e t.1) :
    (b.walkDate date stocks p).Ensures w Q E := by
  unfold walkDate
  rw [Session.ensures_bind, Session.ensures_lending]
  apply h.mono _ fun _ _ he => he
  rintro (_ | fault) t hQ
  · exact hQ
  · exact hQ

/-- The books that a walk over stocks passes through, one after the other, with the one that a
failing step leaves. -/
def stockBooks (b : Backtest σ) (date : String) : List String → Book → σ × Memo → List Book
  | [], book, _ => [book]
  | stock :: stocks, book, w =>
    match b.step date stock (w, book) with
    | (⟨.ok _, _⟩, (w, book')) => book :: stockBooks b date stocks book' w
    | (⟨.error _, _⟩, (_, book')) => [book, book']

def dateBooks (b : Backtest σ) (stop : σ → Bool) (stocks : List String) :
    List String → Progress → σ × Memo → List Book
  | [], p, _ => [p.book]
  | date :: dates, p, w =>
    if stop w.1 then [p.book]
    else b.stockBooks date stocks p.book w ++
      match b.walkDate date stocks p w with
      | (⟨.ok p, _⟩, w) => dateBooks b stop stocks dates p w
      | (⟨.error _, _⟩, _) => []

def books (b : Backtest σ) (stop : σ → Bool) (feed stocks : List String) (range : DateRange)
    (w : σ × Memo) : List Book :=
  b.dateBooks stop stocks (feed.reverse.filter range.contains) {} w

theorem stockBooks_all {P : Book → Prop}
    (hP : ∀ book stock date verdict book', P book → book.Turn stock date verdict book' → P book') :
    ∀ (stocks : List String) (book : Book) (w : σ × Memo), P book →
      ∀ x ∈ b.stockBooks date stocks book w, P x := by
  intro stocks
  induction stocks with
  | nil =>
    intro book w hb x hx
    rw [List.mem_singleton.mp hx]
    exact hb
  | cons stock stocks ih =>
    intro book w hb x hx
    unfold stockBooks at hx
    split at hx
    · next _ _ w' book' hs =>
      rcases List.mem_cons.mp hx with rfl | hx
      · exact hb
      · have hturn := (step_turn b date stock book w).ok (by rw [hs])
        rw [hs] at hturn
        obtain ⟨verdict, ht⟩ := hturn
        exact ih book' w' (hP _ _ _ _ _ hb ht) x hx
    · next _ _ _ book' hs =>
      have hbook := (step_turn b date stock book w).error (by rw [hs])
      rw [hs] at hbook
      obtain rfl : book' = book := hbook
      simp only [List.mem_cons, List.not_mem_nil, or_false, or_self] at hx
      exact hx ▸ hb

theorem walkDate_keeps {P : Book → Prop}
    (hP : ∀ book stock date verdict book', P book → book.Turn stock date verdict book' → P book')
    {p : Progress} (h : P p.book) :
    (b.walkDate date stocks p).Ensures w (fun p' _ => P p'.book) fun _ _ => True := by
  apply ensures_walkDate
  have hstep : ∀ done stock todo (book : Book) (w : σ × Memo), stocks = done ++ stock :: todo →
      P book → (b.step date stock).Ensures (w, book) (fun _ t => P t.2)
        (Session.onFault (fun _ t => P t.2) fun _ _ => True) :=
    fun _ _ _ _ _ _ hb => ensures_step_of_turn hb fun _ _ => hP _ _ _ _ _ hb
  apply (ensures_walkStocks (I := fun _ book _ => P book) (J := fun _ book _ => P book)
    (E := fun _ _ => True) hstep h).mono _ fun _ _ _ => trivial
  rintro (_ | fault) t hb
  · exact hb
  · obtain ⟨done, -, hb⟩ := hb
    exact hb

theorem dateBooks_all {P : Book → Prop}
    (hP : ∀ book stock date verdict book', P book → book.Turn stock date verdict book' → P book') :
    ∀ (dates : List String) (p : Progress) (w : σ × Memo), P p.book →
      ∀ x ∈ b.dateBooks stop stocks dates p w, P x := by
  intro dates
  induction dates with
  | nil =>
    intro p w hp x hx
    rw [List.mem_singleton.mp hx]
    exact hp
  | cons date dates ih =>
    intro p w hp x hx
    unfold dateBooks at hx
    split at hx
    · rw [List.mem_singleton.mp hx]
      exact hp
    · rcases List.mem_append.mp hx with hx | hx
      · exact stockBooks_all hP stocks p.book w hp x hx
      · split at hx
        · next p' _ w' hs =>
          have hp' : P p'.book := (walkDate_keeps (b := b) (w := w) hP hp).ok (by rw [hs])
          exact ih p' w' hp' x hx
        · cases hx

end Backtest

end StockScreen

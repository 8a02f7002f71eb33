import StockScreen.Backtest.Book

/-! # The ledger of a stock

A ledger is a machine for one stock, with four phases and the trades closed so
far. The book of a backtest holds one ledger for each stock. A turn takes the
ledger of its stock one step further and leaves the others as they are.
-/

namespace StockScreen

/-- What a stock is waiting for: a signal to buy, a price to buy at, a signal to sell, or a price
to sell at. -/
inductive Phase
  | flat
  | buyPending
  | held (entryDate : String) (entryPrice : Float)
  | sellPending (entryDate : String) (entryPrice : Float)

def Phase.position? (stock : String) : Phase → Option Position
  | flat | buyPending => none
  | held date price | sellPending date price => some ⟨stock, date, price⟩

/-- What a stock meets on a date: its row, if it has one, and the sides it qualifies for. -/
structure Day where
  date : String
  row? : Option Row
  buys : Bool
  sells : Bool

structure Ledger where
  phase : Phase := .flat
  /-- Closed trades in the order of closing. -/
  trades : List Trade := []

/-- Nothing happens without a row. With one, a stock that qualifies for its next side gets a
pending order, and a pending order fills at the close, if the row has a number there. -/
def Ledger.step (stock : String) (l : Ledger) (day : Day) : Ledger :=
  match l.phase, day.row? with
  | _, none => l
  | .flat, some _ => if day.buys then { l with phase := .buyPending } else l
  | .buyPending, some row =>
    match row.number? "c" with
    | some price => { l with phase := .held day.date price }
    | none => l
  | .held date price, some _ =>
    if day.sells then { l with phase := .sellPending date price } else l
  | .sellPending entryDate entryPrice, some row =>
    match row.number? "c" with
    | some price => ⟨.flat, l.trades ++ [⟨stock, entryDate, entryPrice, day.date, price⟩]⟩
    | none => l

def Ledger.run (stock : String) (days : List Day) : Ledger := days.foldl (Ledger.step stock) {}

def Day.ofVerdict (date : String) (verdict : Option Verdict) : Day :=
  ⟨date, verdict.map Verdict.row, true, true⟩

namespace Book

variable {book book' : Book} {stock other date : String} {verdict : Option Verdict}

def phase (book : Book) (stock : String) : Phase :=
  match book.position? stock, book.isWaiting (book.side stock) stock with
  | none, false => .flat
  | none, true => .buyPending
  | some p, false => .held p.entryDate p.entryPrice
  | some p, true => .sellPending p.entryDate p.entryPrice

def ledger (book : Book) (stock : String) : Ledger :=
  ⟨book.phase stock, book.closed.filter (·.stock == stock)⟩

def heldStocks (book : Book) : List String := book.held.map Position.stock

/-- Each stock is held once, stocks to be sold are held, and stocks to be bought are not. -/
structure Consistent (book : Book) : Prop where
  held_once : book.heldStocks.Nodup
  sell_held : ∀ stock ∈ book.waitingSell, stock ∈ book.heldStocks
  buy_not_held : ∀ stock ∈ book.waitingBuy, stock ∉ book.heldStocks

theorem consistent_empty : ({} : Book).Consistent where
  held_once := List.nodup_nil
  sell_held := nofun
  buy_not_held := nofun

theorem stock_of_position? {p : Position} (h : book.position? stock = some p) :
    p.stock = stock := by
  simpa using List.find?_some h

theorem mem_of_position? {p : Position} (h : book.position? stock = some p) : p ∈ book.held :=
  List.mem_of_find?_eq_some h

theorem position?_eq_none_iff : book.position? stock = none ↔ stock ∉ book.heldStocks := by
  simp [position?, heldStocks]

theorem mem_heldStocks_of_position? {p : Position} (h : book.position? stock = some p) :
    stock ∈ book.heldStocks :=
  List.mem_map.mpr ⟨p, mem_of_position? h, stock_of_position? h⟩

theorem side_of_some {p : Position} (h : book.position? stock = some p) :
    book.side stock = .sell := by
  simp [side, h]

theorem side_of_none (h : book.position? stock = none) : book.side stock = .buy := by
  simp [side, h]

@[simp] theorem isWaiting_buy : book.isWaiting .buy stock = book.waitingBuy.contains stock := rfl

@[simp] theorem isWaiting_sell : book.isWaiting .sell stock = book.waitingSell.contains stock := rfl

theorem fill_of_some {p : Position} {price : Float} (h : book.position? stock = some p) :
    book.fill stock date price =
      { book with
        held := book.held.filter (·.stock != stock)
        waitingSell := book.waitingSell.filter (· != stock)
        closed := book.closed ++ [p.close date price] } := by
  simp only [fill, h]
  rfl

theorem fill_of_none {price : Float} (h : book.position? stock = none) :
    book.fill stock date price =
      { book with
        held := ⟨stock, date, price⟩ :: book.held
        waitingBuy := book.waitingBuy.filter (· != stock) } := by
  simp only [fill, h]
  rfl

/-- Everything that a verdict, or none, can do to a book. -/
inductive Turn (book : Book) (stock date : String) : Option Verdict → Book → Prop
  | passed : Turn book stock date none book
  | ordered {v : Verdict} : book.isWaiting (book.side stock) stock = false →
      Turn book stock date (some v) (book.addWaiting (book.side stock) stock)
  | unpriced {v : Verdict} : book.isWaiting (book.side stock) stock = true → v.price? = none →
      Turn book stock date (some v) book
  | filled {v : Verdict} {price : Float} : book.isWaiting (book.side stock) stock = true →
      v.price? = some price → Turn book stock date (some v) (book.fill stock date price)

/-- A verdict can always be recorded, and what it does is a turn. -/
theorem record_turn (book : Book) (stock date : String) (verdict : Option Verdict) :
    ∃ book', (book.record stock date verdict).outcome = .ok book' ∧
      Turn book stock date verdict book' := by
  cases verdict with
  | none => exact ⟨book, rfl, .passed⟩
  | some v =>
    cases hw : book.isWaiting (book.side stock) stock with
    | false => exact ⟨_, by simp [record, hw], .ordered hw⟩
    | true =>
      cases hp : v.price? with
      | none => exact ⟨book, by simp [record, hw, hp], .unpriced hw hp⟩
      | some price => exact ⟨_, by simp [record, hw, hp], .filled hw hp⟩

theorem heldStocks_filter (book : Book) (stock : String) :
    (book.held.filter (·.stock != stock)).map Position.stock =
      book.heldStocks.filter (· != stock) := by
  rw [heldStocks, List.filter_map]
  rfl

theorem Consistent.addWaiting (hc : book.Consistent) (stock : String) :
    (book.addWaiting (book.side stock) stock).Consistent := by
  cases hp : book.position? stock with
  | none =>
    rw [side_of_none hp]
    refine ⟨hc.held_once, hc.sell_held, ?_⟩
    intro x hx
    rcases List.mem_cons.mp hx with rfl | hx
    · exact position?_eq_none_iff.mp hp
    · exact hc.buy_not_held x hx
  | some p =>
    rw [side_of_some hp]
    refine ⟨hc.held_once, ?_, hc.buy_not_held⟩
    intro x hx
    rcases List.mem_cons.mp hx with rfl | hx
    · exact mem_heldStocks_of_position? hp
    · exact hc.sell_held x hx

theorem Consistent.fill (hc : book.Consistent) (stock date : String) (price : Float) :
    (book.fill stock date price).Consistent := by
  cases hp : book.position? stock with
  | none =>
    rw [fill_of_none hp]
    have hn := position?_eq_none_iff.mp hp
    refine ⟨List.nodup_cons.mpr ⟨hn, hc.held_once⟩, ?_, ?_⟩
    · intro x hx
      exact List.mem_cons_of_mem _ (hc.sell_held x hx)
    · intro x hx
      obtain ⟨hx, hne⟩ := List.mem_filter.mp hx
      exact List.not_mem_cons_of_ne_of_not_mem (by simpa using hne) (hc.buy_not_held x hx)
  | some p =>
    rw [fill_of_some hp]
    refine ⟨?_, ?_, ?_⟩ <;> simp only [heldStocks, heldStocks_filter]
    · exact hc.held_once.filter _
    · intro x hx
      obtain ⟨hx, hne⟩ := List.mem_filter.mp hx
      exact List.mem_filter.mpr ⟨hc.sell_held x hx, hne⟩
    · intro x hx hm
      exact hc.buy_not_held x hx (List.mem_filter.mp hm).1

theorem Turn.consistent (h : Turn book stock date verdict book') (hc : book.Consistent) :
    book'.Consistent := by
  cases h with
  | passed | unpriced => exact hc
  | ordered hw => exact hc.addWaiting stock
  | filled hw hv => exact hc.fill stock date _

theorem phase_of_none (h : book.position? stock = none) :
    book.phase stock = if stock ∈ book.waitingBuy then .buyPending else .flat := by
  by_cases hw : stock ∈ book.waitingBuy <;> simp [phase, h, side_of_none h, hw]

theorem phase_of_some {p : Position} (h : book.position? stock = some p) :
    book.phase stock = if stock ∈ book.waitingSell then .sellPending p.entryDate p.entryPrice
      else .held p.entryDate p.entryPrice := by
  by_cases hw : stock ∈ book.waitingSell <;> simp [phase, h, side_of_some h, hw]

theorem phase_congr (hp : book'.position? stock = book.position? stock)
    (hb : stock ∈ book'.waitingBuy ↔ stock ∈ book.waitingBuy)
    (hs : stock ∈ book'.waitingSell ↔ stock ∈ book.waitingSell) :
    book'.phase stock = book.phase stock := by
  cases h : book.position? stock with
  | none => simp only [phase_of_none h, phase_of_none (hp.trans h), hb]
  | some p => simp only [phase_of_some h, phase_of_some (hp.trans h), hs]

@[simp] theorem position?_addWaiting (book : Book) (side : Side) (stock other : String) :
    (book.addWaiting side stock).position? other = book.position? other := by
  cases side <;> rfl

@[simp] theorem closed_addWaiting (book : Book) (side : Side) (stock : String) :
    (book.addWaiting side stock).closed = book.closed := by
  cases side <;> rfl

theorem find?_filter_other (held : List Position) (h : other ≠ stock) :
    (held.filter (·.stock != stock)).find? (·.stock == other) =
      held.find? (·.stock == other) := by
  rw [List.find?_filter]
  congr 1
  funext q
  by_cases hq : q.stock = other <;> simp [hq, h]

theorem Turn.ledger_other (h : Turn book stock date verdict book') (hne : other ≠ stock) :
    book'.ledger other = book.ledger other := by
  cases h with
  | passed | unpriced => rfl
  | ordered hw =>
    have hp : (book.addWaiting (book.side stock) stock).phase other = book.phase other := by
      apply phase_congr (position?_addWaiting ..)
      · cases book.side stock <;> simp [addWaiting, setWaiting, waiting, hne]
      · cases book.side stock <;> simp [addWaiting, setWaiting, waiting, hne]
    rw [ledger, ledger, hp, closed_addWaiting]
  | @filled v price hw hv =>
    cases hp : book.position? stock with
    | none =>
      rw [fill_of_none hp, ledger, ledger]
      congr 1
      apply phase_congr
      · simp [position?, hne.symm]
      · simp [hne]
      · rfl
    | some p =>
      rw [fill_of_some hp, ledger, ledger]
      congr 1
      · apply phase_congr
        · exact find?_filter_other book.held hne
        · rfl
        · simp [hne]
      · simp [Position.close, stock_of_position? hp, hne.symm]

theorem ledger_addWaiting {v : Verdict} (hw : book.isWaiting (book.side stock) stock = false) :
    (book.addWaiting (book.side stock) stock).ledger stock =
      (book.ledger stock).step stock (.ofVerdict date (some v)) := by
  cases hp : book.position? stock with
  | none =>
    rw [side_of_none hp] at hw ⊢
    have hw' : stock ∉ book.waitingBuy := by simpa using hw
    have hn : (book.addWaiting .buy stock).phase stock = .buyPending := by
      rw [phase_of_none ((position?_addWaiting ..).trans hp)]
      exact if_pos List.mem_cons_self
    simp [ledger, hn, phase_of_none hp, hw', Ledger.step, Day.ofVerdict]
  | some p =>
    rw [side_of_some hp] at hw ⊢
    have hw' : stock ∉ book.waitingSell := by simpa using hw
    have hn : (book.addWaiting .sell stock).phase stock =
        .sellPending p.entryDate p.entryPrice := by
      rw [phase_of_some ((position?_addWaiting ..).trans hp)]
      exact if_pos List.mem_cons_self
    simp [ledger, hn, phase_of_some hp, hw', Ledger.step, Day.ofVerdict]

theorem step_ledger_unpriced {v : Verdict} (hw : book.isWaiting (book.side stock) stock = true)
    (hv : v.price? = none) :
    (book.ledger stock).step stock (.ofVerdict date (some v)) = book.ledger stock := by
  have hr : v.row.number? "c" = none := hv
  cases hp : book.position? stock with
  | none =>
    have hw' : stock ∈ book.waitingBuy := by simpa [side_of_none hp] using hw
    simp [ledger, phase_of_none hp, hw', Ledger.step, Day.ofVerdict, hr]
  | some p =>
    have hw' : stock ∈ book.waitingSell := by simpa [side_of_some hp] using hw
    simp [ledger, phase_of_some hp, hw', Ledger.step, Day.ofVerdict, hr]

theorem ledger_fill {v : Verdict} {price : Float} (hc : book.Consistent)
    (hw : book.isWaiting (book.side stock) stock = true) (hv : v.price? = some price) :
    (book.fill stock date price).ledger stock =
      (book.ledger stock).step stock (.ofVerdict date (some v)) := by
  have hr : v.row.number? "c" = some price := hv
  cases hp : book.position? stock with
  | none =>
    have hw' : stock ∈ book.waitingBuy := by simpa [side_of_none hp] using hw
    have hs : stock ∉ book.waitingSell := fun hm =>
      position?_eq_none_iff.mp hp (hc.sell_held stock hm)
    have hn : (book.fill stock date price).phase stock = .held date price := by
      rw [fill_of_none hp, phase_of_some (p := ⟨stock, date, price⟩) (by simp [position?])]
      exact if_neg hs
    have ht : (book.fill stock date price).closed = book.closed := by rw [fill_of_none hp]
    simp [ledger, hn, ht, phase_of_none hp, hw', Ledger.step, Day.ofVerdict, hr]
  | some p =>
    have hw' : stock ∈ book.waitingSell := by simpa [side_of_some hp] using hw
    have hb : stock ∉ book.waitingBuy := fun hm =>
      hc.buy_not_held stock hm (mem_heldStocks_of_position? hp)
    have hn : (book.fill stock date price).phase stock = .flat := by
      rw [fill_of_some hp, phase_of_none (by simp [position?])]
      exact if_neg hb
    have ht : (book.fill stock date price).closed = book.closed ++ [p.close date price] := by
      rw [fill_of_some hp]
    simp [ledger, hn, ht, phase_of_some hp, hw', Ledger.step, Day.ofVerdict, hr,
      Position.close, stock_of_position? hp]

/-- A turn takes the ledger of its stock one step further. -/
theorem Turn.ledger_self (h : Turn book stock date verdict book') (hc : book.Consistent) :
    book'.ledger stock = (book.ledger stock).step stock (.ofVerdict date verdict) := by
  cases h with
  | passed => cases hp : book.phase stock <;> simp [ledger, Ledger.step, Day.ofVerdict, hp]
  | ordered hw => exact ledger_addWaiting hw
  | unpriced hw hv => exact (step_ledger_unpriced hw hv).symm
  | filled hw hv => exact ledger_fill hc hw hv

theorem Turn.closed (h : Turn book stock date verdict book') :
    book'.closed = book.closed ∨
      ∃ t : Trade, t.stock = stock ∧ t.exitDate = date ∧ book'.closed = book.closed ++ [t] := by
  cases h with
  | passed | unpriced => exact .inl rfl
  | ordered hw => cases hs : book.side stock <;> exact .inl rfl
  | @filled v price hw hv =>
    cases hp : book.position? stock with
    | none => rw [fill_of_none hp]; exact .inl rfl
    | some p =>
      rw [fill_of_some hp]
      exact .inr ⟨p.close date price, stock_of_position? hp, rfl, rfl⟩

end Book

end StockScreen

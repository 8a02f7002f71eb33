import StockScreen.Backtest.Memo

/-! # The book of a backtest

Positions held, orders pending and trades closed. A verdict on one date makes
an order pending; the order fills at the close of the next date with a price.
-/

namespace StockScreen

structure Position where
  stock : String
  entryDate : String
  entryPrice : Float

structure Trade where
  stock : String
  entryDate : String
  entryPrice : Float
  exitDate : String
  exitPrice : Float

/-- The gain as a fraction of the entry price, and zero for an entry price of zero. -/
def Trade.gain (t : Trade) : Float :=
  if t.entryPrice == 0 then 0 else (t.exitPrice - t.entryPrice) / t.entryPrice

def Position.close (p : Position) (date : String) (price : Float) : Trade :=
  ⟨p.stock, p.entryDate, p.entryPrice, date, price⟩

def Verdict.price? (v : Verdict) : Option Float := v.row.number? "c"

structure Book where
  held : List Position := []
  waitingBuy : List String := []
  waitingSell : List String := []
  /-- Closed trades in the order of closing. -/
  closed : List Trade := []

namespace Book

def position? (book : Book) (stock : String) : Option Position :=
  book.held.find? (·.stock == stock)

/-- What can happen to a stock next: a stock that is held is sold, others are bought. -/
def side (book : Book) (stock : String) : Side :=
  if (book.position? stock).isSome then .sell else .buy

def waiting (book : Book) : Side → List String
  | .buy => book.waitingBuy
  | .sell => book.waitingSell

def isWaiting (book : Book) (side : Side) (stock : String) : Bool :=
  (book.waiting side).contains stock

def setWaiting (book : Book) (side : Side) (stocks : List String) : Book :=
  match side with
  | .buy => { book with waitingBuy := stocks }
  | .sell => { book with waitingSell := stocks }

def addWaiting (book : Book) (side : Side) (stock : String) : Book :=
  book.setWaiting side (stock :: book.waiting side)

def dropWaiting (book : Book) (side : Side) (stock : String) : Book :=
  book.setWaiting side ((book.waiting side).filter (· != stock))

/-- A pending order fills: a stock that is held is sold, others are bought. -/
def fill (book : Book) (stock date : String) (price : Float) : Book :=
  match book.position? stock with
  | some p =>
    { book.dropWaiting .sell stock with
      held := book.held.filter (·.stock != stock)
      closed := book.closed ++ [p.close date price] }
  | none =>
    { book.dropWaiting .buy stock with held := ⟨stock, date, price⟩ :: book.held }

/-- What a verdict, or none, does to the book. -/
def record (book : Book) (stock date : String) (verdict : Option Verdict) : Noted Book :=
  let side := book.side stock
  match verdict with
  | none => pure book
  | some v =>
    if !book.isWaiting side stock then pure (book.addWaiting side stock)
    else match v.price? with
      | none => ⟨.ok book, [.orderPending stock date side.name]⟩
      | some price => pure (book.fill stock date price)

def openPositions (book : Book) : List Position :=
  book.held.mergeSort fun p q => p.stock ≤ q.stock

end Book

end StockScreen

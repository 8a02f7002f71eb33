import StockScreen.Screening.Screener

/-! # Verdicts of a backtest

A backtest asks, date by date, whether a stock qualifies for buying or for
selling. What the store has answered for the date is kept, so that a date's
rows, its windows and the stocks of each side are asked for at most once.
-/

namespace StockScreen

inductive Side | buy | sell
  deriving DecidableEq, Repr

def Side.name : Side → String
  | buy => "buy"
  | sell => "sell"

structure DayEntry where
  date : String
  /-- The date's rows under their stocks, later rows first. -/
  rows : List (String × Row)
  windows : Windows := {}
  buyIds : Option (List String) := none
  sellIds : Option (List String) := none

namespace DayEntry

def ofRows (date : String) (rows : List Row) : DayEntry where
  date := date
  rows := (rows.filterMap fun row => (row.text? entityColumn).map (·, row)).reverse

/-- The last row of a stock. -/
def row? (e : DayEntry) (stock : String) : Option Row := e.rows.lookup stock

def ids? (e : DayEntry) : Side → Option (List String)
  | .buy => e.buyIds
  | .sell => e.sellIds

def setIds (e : DayEntry) (side : Side) (ids : List String) : DayEntry :=
  match side with
  | .buy => { e with buyIds := some ids }
  | .sell => { e with sellIds := some ids }

end DayEntry

/-- How often the store was asked with success. -/
structure MemoStats where
  rawFetches : Nat := 0
  buyComputations : Nat := 0
  sellComputations : Nat := 0
  deriving DecidableEq, Repr

namespace MemoStats

def fetched (m : MemoStats) : MemoStats := { m with rawFetches := m.rawFetches + 1 }

def computed (m : MemoStats) : Side → MemoStats
  | .buy => { m with buyComputations := m.buyComputations + 1 }
  | .sell => { m with sellComputations := m.sellComputations + 1 }

end MemoStats

structure Memo where
  entry : Option DayEntry := none
  stats : MemoStats := {}

/-- A stock that qualifies on a date, with its row. -/
structure Verdict where
  stock : String
  date : String
  row : Row

structure Backtest (σ : Type) where
  screener : Screener σ
  buy : Rule
  sell : Rule

namespace Backtest

variable {σ : Type} (b : Backtest σ)

def rule : Side → Rule
  | .buy => b.buy
  | .sell => b.sell

def load (date : String) : Session (σ × Memo) DayEntry := fun (s, m) =>
  let (r, s) := b.screener.store.ask (.rawRows date) s
  match r.outcome with
  | .ok rows =>
    let e := DayEntry.ofRows date rows
    (⟨.ok e, r.warnings⟩, (s, ⟨some e, m.stats.fetched⟩))
  | .error e => (⟨.error e, r.warnings⟩, (s, m))

/-- The entry of a date. Dates before the live one are refused. -/
def enter (date : String) : Session (σ × Memo) DayEntry := fun (s, m) =>
  match m.entry with
  | none => b.load date (s, m)
  | some e =>
    if date < e.date then (.fail (.outOfOrder date e.date), (s, m))
    else if e.date = date then (pure e, (s, m))
    else b.load date (s, m)

/-- The stocks that qualify for a side on the date of the entry. The windows that were resolved for
them are kept, even if the store fails after that. -/
def sideIds (side : Side) (e : DayEntry) : Session (σ × Memo) (List String) := fun (s, m) =>
  match e.ids? side with
  | some ids => (pure ids, (s, m))
  | none =>
    let (r, (s, ws)) := b.screener.idsWith (b.rule side) e.date none (s, e.windows)
    let e := { e with windows := ws }
    match r.outcome with
    | .ok ids => (r, (s, ⟨some (e.setIds side ids), m.stats.computed side⟩))
    | .error _ => (r, (s, { m with entry := some e }))

/-- The verdict on a stock for one side. A stock with a pending order gets its row whether or not it
qualifies. -/
def evaluate (side : Side) (stock date : String) (waiting : Bool) :
    Session (σ × Memo) (Option Verdict) :=
  if (b.rule side).isEmpty then pure none
  else if !b.screener.feed.contains date then pure none
  else do
    let e ← b.enter date
    match e.row? stock with
    | none => pure none
    | some row => do
      let ids ← b.sideIds side e
      pure (if ids.contains stock || waiting then some ⟨stock, date, row⟩ else none)

end Backtest

end StockScreen

import StockScreen.Backtest.Book

/-! # Simulation over a range of dates

The dates of the range are walked from the oldest to the newest, and each
stock gets a verdict on each of them. A fault of the store ends a date early.
-/

namespace StockScreen

/-- Dates from `first?` to `last?`, both included; a missing bound leaves the range open. -/
structure DateRange where
  first? : Option String := none
  last? : Option String := none
  deriving DecidableEq, Repr

def DateRange.contains (r : DateRange) (date : String) : Bool :=
  r.first?.all (fun d => decide (d ≤ date)) && r.last?.all (fun d => decide (date ≤ d))

structure Progress where
  book : Book := {}
  processed : Nat := 0
  skipped : Nat := 0
  cancelled : Bool := false

structure Simulation where
  closed : List Trade
  openPositions : List Position
  processed : Nat
  skipped : Nat
  cancelled : Bool
  stats : MemoStats

namespace Backtest

variable {σ : Type} (b : Backtest σ)

/-- One stock on one date. The book is part of the state, so that a failure leaves it as it is
at that moment. -/
def step (date stock : String) : Session ((σ × Memo) × Book) Unit := do
  let book ← .inspect Prod.snd
  let side := book.side stock
  let verdict ← (b.evaluate side stock date (book.isWaiting side stock)).onFirst
  .setSecond (← .ofNoted (book.record stock date verdict))

/-- The stocks of one date in turn, up to a fault of the store. -/
def walkStocks (date : String) : List String → Session ((σ × Memo) × Book) (Option StoreFault)
  | [] => pure none
  | stock :: stocks => do
    match ← (b.step date stock).attempt with
    | .ok () => walkStocks date stocks
    | .error fault => pure (some fault)

/-- One date. After a fault the date counts as skipped. -/
def walkDate (date : String) (stocks : List String) (p : Progress) :
    Session (σ × Memo) Progress := do
  let (fault, book) ← (b.walkStocks date stocks).lending p.book
  match fault with
  | none => pure { p with book := book, processed := p.processed + 1 }
  | some fault =>
    .warn [.dateSkipped date fault]
    pure { p with book := book, skipped := p.skipped + 1 }

/-- The dates in turn, up to one before which `stop` holds. -/
def walkDates (stop : σ → Bool) (stocks : List String) : List String → Progress →
    Session (σ × Memo) Progress
  | [], p => pure p
  | date :: dates, p => do
    if ← .inspect fun (s, _) => stop s then
      pure { p with cancelled := true }
    else
      let p ← b.walkDate date stocks p
      walkDates stop stocks dates p

/-- Simulate over the dates of a descending feed that are in the range. -/
def simulate (stop : σ → Bool) (feed stocks : List String) (range : DateRange) :
    Session (σ × Memo) Simulation := do
  let p ← b.walkDates stop stocks (feed.reverse.filter range.contains) {}
  let stats ← .inspect fun (_, m) => m.stats
  pure ⟨p.book.closed, p.book.openPositions, p.processed, p.skipped, p.cancelled, stats⟩

end Backtest

end StockScreen

import StockScreen.Cell
import StockScreen.Noted
import StockScreen.Query.Request

/-! # Sessions with a data store

A data store answers requests, and may change with each of them. A session is
a computation that uses a state, such as the state of a store; a failure keeps
the state reached so far.
-/

namespace StockScreen

structure DataStore (σ : Type) where
  answer : Query.Request → σ → Except StoreFault (List Row) × σ

def Session (σ α : Type) := σ → Noted α × σ

namespace Session

variable {σ ω α β : Type}

def bind (x : Session σ α) (f : α → Session σ β) : Session σ β := fun s =>
  let (a, s) := x s
  match a.outcome with
  | .ok v =>
    let (b, s) := f v s
    (⟨b.outcome, a.warnings ++ b.warnings⟩, s)
  | .error e => (⟨.error e, a.warnings⟩, s)

instance : Monad (Session σ) where
  pure v := fun s => (pure v, s)
  bind := bind

def ofNoted (x : Noted α) : Session σ α := fun s => (x, s)

def fail (e : ScreenError) : Session σ α := ofNoted (.fail e)

def warn (ws : List Warning) : Session σ Unit := ofNoted (.warn ws)

def inspect (f : σ → α) : Session σ α := fun s => (pure (f s), s)

def onFirst (x : Session σ α) : Session (σ × ω) α := fun (s, w) =>
  let (a, s) := x s
  (a, (s, w))

def setSecond (w : ω) : Session (σ × ω) Unit := fun (s, _) => (pure (), (s, w))

/-- Run with a second part of the state that begins as `w`, and return what it ends as. -/
def lending (w : ω) (x : Session (σ × ω) α) : Session σ (α × ω) := fun s =>
  let (a, (s, w)) := x (s, w)
  (⟨a.outcome.map (·, w), a.warnings⟩, s)

/-- Run with a second part of the state that begins as `w` and is given up at the end. -/
def withFresh (w : ω) (x : Session (σ × ω) α) : Session σ α := fun s =>
  let (a, (s, _)) := x (s, w)
  (a, s)

/-- A fault of the store becomes a value; other failures stay. -/
def attempt (x : Session σ α) : Session σ (Except StoreFault α) := fun s =>
  let (a, s) := x s
  match a.outcome with
  | .ok v => (⟨.ok (.ok v), a.warnings⟩, s)
  | .error (.store fault) => (⟨.ok (.error fault), a.warnings⟩, s)
  | .error e => (⟨.error e, a.warnings⟩, s)

/-- A computation whose changes to the state are undone if it fails. -/
def atomically (x : Session σ α) : Session σ α := fun s =>
  let (a, t) := x s
  match a.outcome with
  | .ok _ => (a, t)
  | .error _ => (a, s)

end Session

namespace DataStore

variable {σ : Type}

def ask (store : DataStore σ) (r : Query.Request) : Session σ (List Row) := fun s =>
  let (rows, s) := store.answer r s
  (.ofExcept (rows.mapError .store), s)

/-- The texts in one column of what the store answers. -/
def askColumn (store : DataStore σ) (column : String) (r : Query.Request) :
    Session σ (List String) := do
  let rows ← store.ask r
  pure (rows.filterMap (Row.text? · column))

/-- The known trading dates, newest first. -/
def tradingDates (store : DataStore σ) : Session σ (List String) :=
  store.askColumn "t" .tradingDates

def stockIds (store : DataStore σ) : Session σ (List String) :=
  store.askColumn entityColumn .stockIds

structure Exchange where
  request : Query.Request
  answer : Except StoreFault (List Row)

/-- The same store, with the exchanges made so far, the latest first. -/
def recorded (store : DataStore σ) : DataStore (σ × List Exchange) where
  answer r := fun (s, log) =>
    let (rows, s) := store.answer r s
    (rows, (s, ⟨r, rows⟩ :: log))

end DataStore

end StockScreen

import StockScreen.Error

/-! # Outcomes with warnings

A computation that may fail, together with the warnings it gave on its way. A
failure keeps the warnings given before it, and the outcome of a computation
does not depend on them.
-/

namespace StockScreen

inductive Warning
  | operatorReplaced (operator : String)
  | joinsDropped (tf : Timeframe) (held : Nat) (offsets : List Nat)
  | emptyWindow (tf : Timeframe) (anchor : String)
  | unreadableDate (text : String)
  | orderPending (stock date side : String)
  | dateSkipped (date : String) (fault : StoreFault)
  deriving DecidableEq, Repr

def numberSet (ns : List Nat) : String :=
  "\x7b" ++ String.intercalate ", " (ns.map fun n => String.ofList (Nat.toDigits 10 n)) ++ "\x7d"

def Warning.message : Warning → String
  | operatorReplaced operator => s!"unsupported operator '{operator}', falling back to '='"
  | joinsDropped tf held offsets =>
    s!"{tf.name} window holds {held} dates; dropping joins for offsets " ++ numberSet offsets
  | emptyWindow tf anchor => s!"{tf.name} date window for {anchor} is empty"
  | unreadableDate text => s!"skipping unparseable weekly date '{text}'"
  | orderPending stock date side => s!"{stock} has no close on {date}; {side} stays pending"
  | dateSkipped date fault => s!"skipping {date}: {fault.message}"

structure Noted (α : Type) where
  outcome : Except ScreenError α
  warnings : List Warning

namespace Noted

variable {α β : Type}

def fail (e : ScreenError) : Noted α := ⟨.error e, []⟩

def ofExcept (r : Except ScreenError α) : Noted α := ⟨r, []⟩

def warn (ws : List Warning) : Noted Unit := ⟨.ok (), ws⟩

def bind (x : Noted α) (f : α → Noted β) : Noted β :=
  match x.outcome with
  | .ok a => ⟨(f a).outcome, x.warnings ++ (f a).warnings⟩
  | .error e => ⟨.error e, x.warnings⟩

instance : Monad Noted where
  pure a := ⟨.ok a, []⟩
  bind := bind

@[simp] theorem outcome_pure (a : α) : (pure a : Noted α).outcome = .ok a := rfl

@[simp] theorem outcome_bind (x : Noted α) (f : α → Noted β) :
    (x >>= f).outcome = x.outcome >>= fun a => (f a).outcome := by
  cases h : x.outcome <;> simp [Bind.bind, bind, Except.bind, h]

end Noted

end StockScreen

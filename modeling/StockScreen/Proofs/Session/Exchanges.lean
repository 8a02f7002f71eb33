import Mathlib.Logic.Function.Basic
import StockScreen.Proofs.Session.Recorded
import StockScreen.Proofs.Session.Result

/-! # Exchanges with a store

A store that records its exchanges keeps what is asked of it, the latest first.
Requests that are asked one after the other, each of them once, are answered
with rows that depend on the request only.
-/

namespace StockScreen

theorem Session.Follows.result {σ τ α : Type} {π : τ → σ} {x : Session τ α} {y : Session σ α}
    (h : Follows π x y) (t : τ) : y.result (π t) = ((x.result t).1, π (x.result t).2) := by
  obtain ⟨hr, hs⟩ := h t
  exact Prod.ext (congrArg Noted.outcome hr.symm) hs.symm

namespace DataStore

open Query (Request)

variable {σ : Type} (rows : Request → List Row)

def answered (rs : List Request) : List Exchange := rs.map fun r => ⟨r, .ok (rows r)⟩

variable {rows} {store : DataStore σ} {r : Request} {rs : List Request} {s t : σ}
  {log : List Exchange} {xs : List Row} {fault : StoreFault}

@[simp] theorem answered_cons :
    answered rows (r :: rs) = ⟨r, .ok (rows r)⟩ :: answered rows rs := rfl

theorem answered_append {rs' : List Request} :
    answered rows (rs ++ rs') = answered rows rs ++ answered rows rs' := List.map_append

theorem answered_congr {rows' : Request → List Row} (h : ∀ r ∈ rs, rows r = rows' r) :
    answered rows rs = answered rows' rs :=
  List.map_congr_left fun r hr => by rw [h r hr]

theorem answered_update [DecidableEq Request] (h : r ∉ rs) :
    answered (Function.update rows r xs) rs = answered rows rs :=
  answered_congr fun _ hq => Function.update_of_ne (ne_of_mem_of_not_mem hq h) _ _

theorem result_ask_of_ok (h : store.answer r s = (.ok xs, t)) :
    (store.ask r).result s = (.ok xs, t) := by
  simp only [Session.result, outcome_ask, state_ask, h]
  rfl

theorem result_ask_of_fault (h : store.answer r s = (.error fault, t)) :
    (store.ask r).result s = (.error (.store fault), t) := by
  simp only [Session.result, outcome_ask, state_ask, h]
  rfl

theorem result_askColumn_of_ok (column : String) (h : store.answer r s = (.ok xs, t)) :
    (store.askColumn column r).result s = (.ok (xs.filterMap (Row.text? · column)), t) :=
  Session.result_bind_of_ok (result_ask_of_ok h)

theorem result_askColumn_of_fault (column : String) (h : store.answer r s = (.error fault, t)) :
    (store.askColumn column r).result s = (.error (.store fault), t) :=
  Session.result_bind_of_error (result_ask_of_fault h)

theorem answer_recorded (log : List Exchange) {answer : Except StoreFault (List Row)}
    (h : store.answer r s = (answer, t)) :
    store.recorded.answer r (s, log) = (answer, t, ⟨r, answer⟩ :: log) := by
  simp only [recorded, h]

end DataStore

end StockScreen

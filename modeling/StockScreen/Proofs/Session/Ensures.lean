import StockScreen.Session

/-! # What a session ensures

A session that starts in a state ends with a value or with an error, and in
some state. What holds of a composed session follows from what holds of its
parts, so that a function of the program is described once and then cited.
-/

namespace StockScreen

namespace Session

variable {σ ω α β : Type}

/-- From `s` the session ends with a value and a state in `Q`, or with an error and a state
in `E`. -/
def Ensures (x : Session σ α) (s : σ) (Q : α → σ → Prop) (E : ScreenError → σ → Prop) : Prop :=
  match (x s).1.outcome with
  | .ok v => Q v (x s).2
  | .error e => E e (x s).2

variable {x y : Session σ α} {f : α → Session σ β} {s : σ}
  {Q R : α → σ → Prop} {E F : ScreenError → σ → Prop}

theorem Ensures.ok (h : x.Ensures s Q E) {v : α} (hv : (x s).1.outcome = .ok v) :
    Q v (x s).2 := by
  simpa only [Ensures, hv] using h

theorem Ensures.error (h : x.Ensures s Q E) {e : ScreenError} (he : (x s).1.outcome = .error e) :
    E e (x s).2 := by
  simpa only [Ensures, he] using h

theorem ensures_iff : x.Ensures s Q E ↔
    (∀ v, (x s).1.outcome = .ok v → Q v (x s).2) ∧
      ∀ e, (x s).1.outcome = .error e → E e (x s).2 := by
  constructor
  · intro h
    exact ⟨fun _ hv => h.ok hv, fun _ he => h.error he⟩
  · rintro ⟨hQ, hE⟩
    unfold Ensures
    split
    · next v hv => exact hQ v hv
    · next e he => exact hE e he

theorem Ensures.state {P : σ → Prop} (h : x.Ensures s (fun _ t => P t) fun _ t => P t) :
    P (x s).2 := by
  cases hx : (x s).1.outcome with
  | ok v => exact h.ok hx
  | error e => exact h.error hx

theorem Ensures.exists_ok (h : x.Ensures s Q fun _ _ => False) :
    ∃ v, (x s).1.outcome = .ok v ∧ Q v (x s).2 := by
  cases hx : (x s).1.outcome with
  | ok v => exact ⟨v, rfl, h.ok hx⟩
  | error e => exact (h.error hx).elim

theorem Ensures.mono (h : x.Ensures s Q E) (hQ : ∀ v t, Q v t → R v t)
    (hE : ∀ e t, E e t → F e t) : x.Ensures s R F := by
  rw [ensures_iff] at h ⊢
  exact ⟨fun v hv => hQ v _ (h.1 v hv), fun e he => hE e _ (h.2 e he)⟩

theorem Ensures.and (h : x.Ensures s Q E) (h' : x.Ensures s R F) :
    x.Ensures s (fun v t => Q v t ∧ R v t) (fun e t => E e t ∧ F e t) := by
  rw [ensures_iff] at h h' ⊢
  exact ⟨fun v hv => ⟨h.1 v hv, h'.1 v hv⟩, fun e he => ⟨h.2 e he, h'.2 e he⟩⟩

theorem ensures_true : x.Ensures s (fun _ _ => True) fun _ _ => True :=
  ensures_iff.mpr ⟨fun _ _ => trivial, fun _ _ => trivial⟩

@[simp] theorem ensures_pure (v : α) : (pure v : Session σ α).Ensures s Q E ↔ Q v s := Iff.rfl

@[simp] theorem ensures_bind {Q : β → σ → Prop} :
    (x >>= f).Ensures s Q E ↔ x.Ensures s (fun v t => (f v).Ensures t Q E) E := by
  change (x.bind f).Ensures s Q E ↔ _
  cases h : (x s).1.outcome with
  | ok v => simp only [Ensures, Session.bind, h]
  | error e => simp only [Ensures, Session.bind, h]

@[simp] theorem ensures_fail (e : ScreenError) : (fail e : Session σ α).Ensures s Q E ↔ E e s :=
  Iff.rfl

@[simp] theorem ensures_warn (ws : List Warning) {Q : Unit → σ → Prop} :
    (warn ws).Ensures s Q E ↔ Q () s := Iff.rfl

@[simp] theorem ensures_inspect (g : σ → α) : (inspect g).Ensures s Q E ↔ Q (g s) s := Iff.rfl

theorem ensures_ofNoted {n : Noted α} (hQ : ∀ v, n.outcome = .ok v → Q v s)
    (hE : ∀ e, n.outcome = .error e → E e s) : (ofNoted n).Ensures s Q E :=
  ensures_iff.mpr ⟨hQ, hE⟩

@[simp] theorem ensures_onFirst {w : ω} {Q : α → σ × ω → Prop} {E : ScreenError → σ × ω → Prop} :
    (x.onFirst (ω := ω)).Ensures (s, w) Q E ↔
      x.Ensures s (fun v t => Q v (t, w)) fun e t => E e (t, w) := Iff.rfl

@[simp] theorem ensures_setSecond (w v : ω) {Q : Unit → σ × ω → Prop}
    {E : ScreenError → σ × ω → Prop} : (setSecond v).Ensures (s, w) Q E ↔ Q () (s, v) := Iff.rfl

@[simp] theorem ensures_lending {w : ω} {x : Session (σ × ω) α} {Q : α × ω → σ → Prop} :
    (lending w x).Ensures s Q E ↔
      x.Ensures (s, w) (fun v t => Q (v, t.2) t.1) fun e t => E e t.1 := by
  cases h : (x (s, w)).1.outcome with
  | ok v => simp only [Ensures, lending, h, Except.map]
  | error e => simp only [Ensures, lending, h, Except.map]

@[simp] theorem ensures_withFresh {w : ω} {x : Session (σ × ω) α} :
    (withFresh w x).Ensures s Q E ↔
      x.Ensures (s, w) (fun v t => Q v t.1) fun e t => E e t.1 := Iff.rfl

/-- What holds at a fault of the store, and what at any other error. -/
def onFault (F : StoreFault → σ → Prop) (E : ScreenError → σ → Prop) : ScreenError → σ → Prop
  | .store fault => F fault
  | e => E e

/-- After `attempt` only the errors that are no faults of the store are left. -/
theorem ensures_attempt {Q : Except StoreFault α → σ → Prop} :
    x.attempt.Ensures s Q E ↔
      x.Ensures s (fun v t => Q (.ok v) t) (onFault (fun fault t => Q (.error fault) t) E) := by
  cases h : (x s).1.outcome with
  | ok v => simp only [Ensures, attempt, h]
  | error e => cases e <;> simp only [Ensures, attempt, h, onFault]

theorem ensures_atomically :
    x.atomically.Ensures s Q E ↔ x.Ensures s Q fun e _ => E e s := by
  cases h : (x s).1.outcome with
  | ok v => simp only [Ensures, atomically, h]
  | error e => simp only [Ensures, atomically, h]

end Session

namespace DataStore

variable {σ : Type} {store : DataStore σ} {s : σ}

@[simp] theorem outcome_ask (r : Query.Request) :
    (store.ask r s).1.outcome = (store.answer r s).1.mapError .store := rfl

@[simp] theorem state_ask (r : Query.Request) : (store.ask r s).2 = (store.answer r s).2 := rfl

theorem ensures_ask {r : Query.Request} {Q : List Row → σ → Prop}
    {E : ScreenError → σ → Prop}
    (hQ : ∀ rows, (store.answer r s).1 = .ok rows → Q rows (store.answer r s).2)
    (hE : ∀ fault, (store.answer r s).1 = .error fault →
      E (.store fault) (store.answer r s).2) : (store.ask r).Ensures s Q E := by
  rw [Session.ensures_iff, outcome_ask, state_ask]
  cases h : (store.answer r s).1 with
  | ok rows =>
    refine ⟨?_, nofun⟩
    rintro _ ⟨⟩
    exact hQ rows h
  | error fault =>
    refine ⟨nofun, ?_⟩
    rintro _ ⟨⟩
    exact hE fault h

end DataStore

end StockScreen

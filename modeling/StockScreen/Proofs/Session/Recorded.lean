import StockScreen.Proofs.Session.Ensures

/-! # Recorded sessions

A store that records its exchanges answers like the store it records. A session
on a larger state follows another one when it gives the same results and its
state, seen through a map, goes through the same changes.
-/

namespace StockScreen

namespace Session

variable {σ τ ω α β : Type} {π : τ → σ}

/-- Seen through `π`, the session `x` is the session `y`. -/
def Follows (π : τ → σ) (x : Session τ α) (y : Session σ α) : Prop :=
  ∀ t, (x t).1 = (y (π t)).1 ∧ π (x t).2 = (y (π t)).2

def alongside (ω : Type) (π : τ → σ) : τ × ω → σ × ω := Prod.map π id

theorem follows_pure (v : α) : Follows π (pure v) (pure v) := fun _ => ⟨rfl, rfl⟩

theorem follows_ofNoted (n : Noted α) : Follows π (ofNoted n) (ofNoted n) := fun _ => ⟨rfl, rfl⟩

theorem follows_warn (ws : List Warning) : Follows π (warn ws) (warn ws) := follows_ofNoted _

theorem follows_inspect {f : τ → α} {g : σ → α} (h : ∀ t, f t = g (π t)) :
    Follows π (inspect f) (inspect g) :=
  fun t => ⟨congrArg pure (h t), rfl⟩

theorem Follows.run {x : Session τ α} {y : Session σ α} (h : Follows π x y) (t : τ) :
    ∃ a t', x t = (a, t') ∧ y (π t) = (a, π t') := by
  obtain ⟨hr, hs⟩ := h t
  exact ⟨(x t).1, (x t).2, rfl, Prod.ext hr.symm hs.symm⟩

/-- What a session ensures holds of the one that it follows. -/
theorem Follows.ensures {x : Session τ α} {y : Session σ α} (h : Follows π x y) {t : τ}
    {Q : α → σ → Prop} {E : ScreenError → σ → Prop}
    (hx : x.Ensures t (fun v u => Q v (π u)) fun e u => E e (π u)) : y.Ensures (π t) Q E := by
  obtain ⟨a, t', hxt, hyt⟩ := h.run t
  simpa only [Ensures, hxt, hyt] using hx

theorem Follows.bind {x : Session τ α} {y : Session σ α} {f : α → Session τ β}
    {g : α → Session σ β} (hx : Follows π x y) (hf : ∀ v, Follows π (f v) (g v)) :
    Follows π (x >>= f) (y >>= g) := by
  intro t
  obtain ⟨a, t', hxt, hyt⟩ := hx.run t
  change (x.bind f t).1 = (y.bind g (π t)).1 ∧ π (x.bind f t).2 = (y.bind g (π t)).2
  cases ho : a.outcome with
  | ok v =>
    obtain ⟨hr, hs⟩ := hf v t'
    simp only [Session.bind, hxt, hyt, ho, hr, hs, and_self]
  | error e => simp only [Session.bind, hxt, hyt, ho, and_self]

theorem Follows.attempt {x : Session τ α} {y : Session σ α} (h : Follows π x y) :
    Follows π x.attempt y.attempt := by
  intro t
  obtain ⟨a, t', hxt, hyt⟩ := h.run t
  simp only [Session.attempt, hxt, hyt]
  cases a.outcome with
  | ok v => exact ⟨rfl, rfl⟩
  | error e => cases e <;> exact ⟨rfl, rfl⟩

theorem Follows.onFirst {x : Session τ α} {y : Session σ α} (h : Follows π x y) :
    Follows (alongside ω π) (x.onFirst (ω := ω)) y.onFirst := by
  rintro ⟨t, w⟩
  obtain ⟨hr, hs⟩ := h t
  exact ⟨hr, Prod.ext hs rfl⟩

theorem follows_setSecond (w : ω) :
    Follows (alongside ω π) (setSecond (σ := τ) w) (setSecond w) := fun _ => ⟨rfl, rfl⟩

theorem Follows.lending {x : Session (τ × ω) α} {y : Session (σ × ω) α}
    (h : Follows (alongside ω π) x y) (w : ω) : Follows π (x.lending w) (y.lending w) := by
  intro t
  obtain ⟨a, ⟨t', w'⟩, hxt, hyt⟩ := h.run (t, w)
  change y (π t, w) = (a, (π t', w')) at hyt
  simp only [Session.lending, hxt, hyt, and_self]

end Session

namespace DataStore

variable {σ τ : Type} {π : τ → σ}

/-- Seen through `π`, a store answers like another one. -/
def Follows (π : τ → σ) (fine : DataStore τ) (store : DataStore σ) : Prop :=
  ∀ r, Session.Follows π (fine.ask r) (store.ask r)

theorem recorded_follows (store : DataStore σ) : Follows Prod.fst store.recorded store := by
  rintro r ⟨s, log⟩
  exact ⟨rfl, rfl⟩

/-- A store without a state, where each request has one answer, rows or a fault. -/
def replying (answers : Query.Request → Except StoreFault (List Row)) : DataStore Unit where
  answer r := fun s => (answers r, s)

theorem follows_replying {store : DataStore σ}
    {answers : Query.Request → Except StoreFault (List Row)}
    (h : ∀ r s, (store.answer r s).1 = answers r) :
    Follows (fun _ => ()) store (replying answers) :=
  fun r s => ⟨congrArg (fun a => Noted.ofExcept (Except.mapError ScreenError.store a)) (h r s), rfl⟩

theorem Follows.askColumn {fine : DataStore τ} {store : DataStore σ} (h : Follows π fine store)
    (column : String) (r : Query.Request) :
    Session.Follows π (fine.askColumn column r) (store.askColumn column r) :=
  (h r).bind fun _ => Session.follows_pure _

end DataStore

end StockScreen

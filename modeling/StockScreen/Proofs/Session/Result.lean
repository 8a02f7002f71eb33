import StockScreen.Proofs.Session.Ensures

/-! # Results of a session

What a session ends with, apart from its warnings: a value or an error, and a
state. The result of a composed session is that of its second part, from the
state in which the first one ends.
-/

namespace StockScreen

namespace Session

variable {σ α β : Type} {x : Session σ α} {f : α → Session σ β} {s t : σ} {v : α}
  {e : ScreenError}

def result (x : Session σ α) (s : σ) : Except ScreenError α × σ := ((x s).1.outcome, (x s).2)

theorem outcome_of_result (h : x.result s = (.ok v, t)) : (x s).1.outcome = .ok v :=
  congrArg Prod.fst h

theorem state_of_result {r : Except ScreenError α} (h : x.result s = (r, t)) : (x s).2 = t :=
  congrArg Prod.snd h

theorem exists_result (hv : (x s).1.outcome = .ok v) : ∃ t, x.result s = (.ok v, t) :=
  ⟨(x s).2, by rw [result, hv]⟩

@[simp] theorem result_pure : (pure v : Session σ α).result s = (.ok v, s) := rfl

@[simp] theorem result_warn (ws : List Warning) :
    (warn ws : Session σ Unit).result s = (.ok (), s) := rfl

@[simp] theorem result_inspect (g : σ → α) : (inspect g).result s = (.ok (g s), s) := rfl

@[simp] theorem result_ofNoted (n : Noted α) :
    (ofNoted n : Session σ α).result s = (n.outcome, s) := rfl

theorem result_ofNoted_of {n : Noted α} {r : Except ScreenError α} (h : n.outcome = r) :
    (ofNoted n : Session σ α).result s = (r, s) := by
  rw [result_ofNoted, h]

theorem result_onFirst_of {ω : Type} {w : ω} {r : Except ScreenError α} (h : x.result s = (r, t)) :
    x.onFirst.result (s, w) = (r, t, w) := by
  cases h
  rfl

@[simp] theorem result_setSecond {ω : Type} (w v : ω) :
    (setSecond v).result (s, w) = (.ok (), s, v) := rfl

theorem result_lending_of_ok {ω : Type} {x : Session (σ × ω) α} {w w' : ω}
    (h : x.result (s, w) = (.ok v, t, w')) : (lending w x).result s = (.ok (v, w'), t) := by
  have ho := outcome_of_result h
  have hs := state_of_result h
  simp only [result, lending, ho, hs, Except.map]

theorem of_result_lending {ω : Type} {x : Session (σ × ω) α} {w w' : ω}
    (h : (lending w x).result s = (.ok (v, w'), t)) : x.result (s, w) = (.ok v, t, w') := by
  rcases hx : x.result (s, w) with ⟨_ | u, r, w₁⟩
  · have ho : (x (s, w)).1.outcome = .error _ := congrArg Prod.fst hx
    simp [result, lending, ho, Except.map] at h
  · rw [result_lending_of_ok hx] at h
    cases h
    rfl

theorem result_bind_of_ok (h : x.result s = (.ok v, t)) :
    (x >>= f).result s = (f v).result t := by
  have ho := outcome_of_result h
  have hs := state_of_result h
  change (x.bind f).result s = _
  simp only [result, Session.bind, ho, hs]

theorem result_bind_of_error (h : x.result s = (.error e, t)) :
    (x >>= f).result s = (.error e, t) := by
  have ho : (x s).1.outcome = .error e := congrArg Prod.fst h
  have hs := state_of_result h
  change (x.bind f).result s = _
  simp only [result, Session.bind, ho, hs]

theorem result_bind_congr {y : Session σ α} (h : x.result s = y.result t) :
    (x >>= f).result s = (y >>= f).result t := by
  rcases hy : y.result t with ⟨_ | v, u⟩
  · rw [result_bind_of_error (h.trans hy), result_bind_of_error hy]
  · rw [result_bind_of_ok (h.trans hy), result_bind_of_ok hy]

theorem result_attempt_of_ok (h : x.result s = (.ok v, t)) :
    x.attempt.result s = (.ok (.ok v), t) := by
  have ho := outcome_of_result h
  have hs := state_of_result h
  simp only [result, attempt, ho, hs]

theorem result_attempt_of_fault {fault : StoreFault} (h : x.result s = (.error (.store fault), t)) :
    x.attempt.result s = (.ok (.error fault), t) := by
  have ho : (x s).1.outcome = .error (.store fault) := congrArg Prod.fst h
  have hs := state_of_result h
  simp only [result, attempt, ho, hs]

theorem exists_of_result_bind {v : β} (h : (x >>= f).result s = (.ok v, t)) :
    ∃ u r, x.result s = (.ok u, r) ∧ (f u).result r = (.ok v, t) := by
  rcases hx : x.result s with ⟨_ | u, r⟩
  · rw [result_bind_of_error hx] at h
    cases h
  · rw [result_bind_of_ok hx] at h
    exact ⟨u, r, rfl, h⟩

theorem of_result_attempt {r : Except StoreFault α} (h : x.attempt.result s = (.ok r, t)) :
    (∃ v, r = .ok v ∧ x.result s = (.ok v, t)) ∨
      ∃ fault, r = .error fault ∧ x.result s = (.error (.store fault), t) := by
  rcases hx : x.result s with ⟨e | v, u⟩
  · cases e with
    | store fault =>
      rw [result_attempt_of_fault hx] at h
      cases h
      exact .inr ⟨fault, rfl, rfl⟩
    | _ =>
      have ho : (x s).1.outcome = .error _ := congrArg Prod.fst hx
      simp [result, attempt, ho] at h
  · rw [result_attempt_of_ok hx] at h
    cases h
    exact .inl ⟨v, rfl, rfl⟩

theorem result_atomically_of_ok (h : x.result s = (.ok v, t)) :
    x.atomically.result s = (.ok v, t) := by
  have ho := outcome_of_result h
  have hs := state_of_result h
  simp only [result, atomically, ho, hs]

theorem result_atomically_of_error (h : x.result s = (.error e, t)) :
    x.atomically.result s = (.error e, s) := by
  have ho : (x s).1.outcome = .error e := congrArg Prod.fst h
  simp only [result, atomically, ho]

theorem Ensures.of_result {Q : α → σ → Prop} {E : ScreenError → σ → Prop} (h : x.Ensures s Q E)
    (hx : x.result s = (.ok v, t)) : Q v t :=
  state_of_result hx ▸ h.ok (outcome_of_result hx)

end Session

end StockScreen

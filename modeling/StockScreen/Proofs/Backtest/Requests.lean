import StockScreen.Backtest.Memo
import StockScreen.Proofs.Screening.Compilation
import StockScreen.Proofs.Session.Ensures

/-! # What a screen asks for

Over a store that records its exchanges, a screen asks for what belongs to its
anchor only. It asks for a window with success once, if it had none before, and
for the stocks once, as the last thing it does.
-/

namespace StockScreen

open DataStore (Exchange)

inductive Purpose
  | rows
  | hourly
  | weekly
  | ids (side : Side)
  deriving DecidableEq

def Query.Request.purpose? (side : Side) : Query.Request → Option Purpose
  | .rawRows _ => some .rows
  | .hourlyTimes .. => some .hourly
  | .weeklyDates .. => some .weekly
  | .matching .. => some (.ids side)
  | _ => none

def served (side : Side) (p : Purpose) (log : List Exchange) : Nat :=
  log.countP fun x => x.answer.isOk && x.request.purpose? side == some p

def Windows.holds (ws : Windows) : Purpose → Bool
  | .hourly => ws.hourly.isSome
  | .weekly => ws.weekly.isSome
  | .rows | .ids _ => false

/-- The purpose for which the window of a timeframe is asked for, unless it comes from the feed. -/
def Timeframe.purpose? : Timeframe → Option Purpose
  | .hourly => some .hourly
  | .daily => none
  | .weekly => some .weekly

def Plan.MadeFrom (W : Timeframe → Window → Prop) (p : Plan) : Prop :=
  ∃ tf cs w allow, W tf w ∧ p = .make tf cs w allow

def Windows.Have (W : Timeframe → Window → Prop) (ws : Windows) : Prop :=
  ∀ tf w, ws.get? tf = some w → W tf w

section

variable {side : Side} {p q : Purpose} {log : List Exchange} {r : Query.Request}

@[simp] theorem served_nil : served side p [] = 0 := rfl

theorem served_cons_ok (rows : List Row) (hq : r.purpose? side = some q) :
    served side p (⟨r, .ok rows⟩ :: log) = served side p log + (q == p).toNat := by
  rw [served, List.countP_cons, hq]
  by_cases hqp : q = p
  · simp [hqp, served, Except.isOk, Except.toBool]
  · simp [hqp, served]

theorem served_cons_error (fault : StoreFault) :
    served side p (⟨r, .error fault⟩ :: log) = served side p log := by
  simp [served, Except.isOk, Except.toBool]

end

section

variable {W : Timeframe → Window → Prop} {ws : Windows} {tf : Timeframe} {w : Window}

theorem Windows.have_empty : Windows.Have W {} := by
  intro tf w hw
  cases tf <;> cases hw

theorem Windows.Have.insert (h : ws.Have W) (hw : W tf w) : (ws.insert tf w).Have W := by
  intro tf' w' hw'
  have hother := h tf' w'
  cases tf <;> cases tf' <;> first | exact hother hw' | (cases hw'; exact hw)

theorem Windows.holds_insert (ws : Windows) (tf : Timeframe) (w : Window) (p : Purpose) :
    (ws.insert tf w).holds p = (ws.holds p || tf.purpose? == some p) := by
  cases tf <;> cases p <;> simp [Windows.insert, Windows.holds, Timeframe.purpose?]

theorem Windows.not_holds {q : Purpose} (h : ws.get? tf = none) (hq : tf.purpose? = some q) :
    ws.holds q = false := by
  cases tf <;> cases hq <;> simpa [Windows.holds, Windows.get?] using h

end

namespace DataStore

variable {σ : Type} (store : DataStore σ) (r : Query.Request) (s : σ) (log : List Exchange)

theorem ensures_ask_recorded :
    (store.recorded.ask r).Ensures (s, log) (fun rows t => t.2 = ⟨r, .ok rows⟩ :: log)
      fun e t => ∃ fault, e = .store fault ∧ t.2 = ⟨r, .error fault⟩ :: log := by
  refine ensures_ask (fun rows h => ?_) fun fault h => ⟨fault, rfl, ?_⟩
  · exact congrArg (⟨r, ·⟩ :: log) h
  · exact congrArg (⟨r, ·⟩ :: log) h

theorem ensures_askColumn_recorded (column : String) :
    (store.recorded.askColumn column r).Ensures (s, log)
      (fun _ t => ∃ rows, t.2 = ⟨r, .ok rows⟩ :: log)
      fun e t => ∃ fault, e = .store fault ∧ t.2 = ⟨r, .error fault⟩ :: log := by
  rw [askColumn, Session.ensures_bind]
  exact (ensures_ask_recorded store r s log).mono (fun rows t ht => ⟨rows, ht⟩) fun _ _ he => he

end DataStore

namespace Screener

variable {σ : Type} (sc : Screener σ) (W : Timeframe → Window → Prop) (anchor : String)

/-- What a screen may ask for at an anchor, with plans from windows that have a property. -/
inductive Asks : Query.Request → Prop
  | rows : Asks (.rawRows anchor)
  | hourly :
    Asks (.hourlyTimes (anchor ++ " " ++ sc.settings.cutoff.text) sc.settings.hourlyLookback)
  | weekly : Asks (.weeklyDates anchor sc.settings.weeklyLookback)
  | stocks {ps : List Plan} (h : ∀ p ∈ ps, p.MadeFrom W) : Asks (sc.request ps)

/-- From one log to a longer one everything is asked for at the anchor, and what is held at the
later one but not at the earlier one has been asked for once with success. -/
structure Charges (side : Side) (log : List Exchange) (held : Purpose → Bool)
    (log' : List Exchange) (held' : Purpose → Bool) : Prop where
  served : ∀ p, served side p log' + (held p).toNat = served side p log + (held' p).toNat
  asks : ∃ new, log' = new ++ log ∧ ∀ x ∈ new, sc.Asks W anchor x.request

def Resolves : Prop :=
  ∀ tf s, (sc.resolve tf anchor).Ensures s (fun w _ => W tf w) fun _ _ => True

variable {sc W anchor} {side : Side} {log log' log'' : List Exchange}
  {held held' held'' : Purpose → Bool} {r : Query.Request}

namespace Charges

theorem refl : sc.Charges W anchor side log held log held :=
  ⟨fun _ => rfl, [], rfl, fun _ hx => absurd hx List.not_mem_nil⟩

theorem trans (h : sc.Charges W anchor side log held log' held')
    (h' : sc.Charges W anchor side log' held' log'' held'') :
    sc.Charges W anchor side log held log'' held'' where
  served p := by
    have := h.served p
    have := h'.served p
    omega
  asks := by
    obtain ⟨xs, hxs, hasks⟩ := h.asks
    obtain ⟨ys, hys, hasks'⟩ := h'.asks
    refine ⟨ys ++ xs, by rw [hys, hxs, List.append_assoc], fun x hx => ?_⟩
    rcases List.mem_append.mp hx with hx | hx
    · exact hasks' x hx
    · exact hasks x hx

theorem lift {more more' : Purpose → Bool} (h : sc.Charges W anchor side log held log' held')
    (hrest : ∀ p, (more p).toNat + (held' p).toNat = (more' p).toNat + (held p).toNat) :
    sc.Charges W anchor side log more log' more' where
  served p := by
    have := h.served p
    have := hrest p
    omega
  asks := h.asks

theorem answered {rows : List Row} {q : Purpose} (hr : sc.Asks W anchor r)
    (hq : r.purpose? side = some q) (hheld : held q = false) :
    sc.Charges W anchor side log held (⟨r, .ok rows⟩ :: log) fun p => held p || q == p where
  served p := by
    rw [served_cons_ok rows hq]
    by_cases hqp : q = p
    · subst hqp
      simp [hheld]
    · simp [beq_false_of_ne hqp]
  asks := ⟨[_], rfl, fun x hx => List.mem_singleton.mp hx ▸ hr⟩

theorem failed {fault : StoreFault} (hr : sc.Asks W anchor r) :
    sc.Charges W anchor side log held (⟨r, .error fault⟩ :: log) held where
  served p := by rw [served_cons_error]
  asks := ⟨[_], rfl, fun x hx => List.mem_singleton.mp hx ▸ hr⟩

end Charges

end Screener

namespace Screener

variable {σ : Type} {sc : Screener (σ × List Exchange)} {store : DataStore σ}
  (hstore : sc.store = store.recorded) {W : Timeframe → Window → Prop} {anchor : String}
  {log : List Exchange} {ws : Windows} {s : σ}
include hstore

theorem charges_findWindow {held : Purpose → Bool} {tf : Timeframe} (side : Side)
    (hheld : ∀ q, tf.purpose? = some q → held q = false) :
    (sc.findWindow anchor tf).Ensures (s, log)
      (fun _ t => sc.Charges W anchor side log held t.2 fun p => held p || tf.purpose? == some p)
      fun e t => (∃ fault, e = .store fault) ∧ sc.Charges W anchor side log held t.2 held := by
  have hask : ∀ column r q, sc.Asks W anchor r → r.purpose? side = some q →
      tf.purpose? = some q → (sc.store.askColumn column r).Ensures (s, log)
        (fun _ t => sc.Charges W anchor side log held t.2 fun p => held p || tf.purpose? == some p)
        fun e t => (∃ fault, e = .store fault) ∧ sc.Charges W anchor side log held t.2 held := by
    intro column r q hr hq htf
    rw [hstore]
    apply (DataStore.ensures_askColumn_recorded store r s log column).mono
    · rintro _ ⟨t, -⟩ ⟨rows, rfl⟩
      rw [htf]
      exact Charges.answered hr hq (hheld q htf)
    · rintro e ⟨t, -⟩ ⟨fault, rfl, rfl⟩
      exact ⟨⟨fault, rfl⟩, .failed hr⟩
  cases tf with
  | daily =>
    have hrefl : sc.Charges W anchor side log held log held := .refl
    simpa [findWindow, Timeframe.purpose?] using hrefl
  | hourly =>
    rw [findWindow, hourlyWindow, Session.ensures_bind]
    exact (hask _ _ _ .hourly rfl rfl).mono (fun _ _ h => h) fun _ _ h => h
  | weekly =>
    rw [findWindow, weeklyWindow, Session.ensures_bind]
    exact (hask _ _ _ .weekly rfl rfl).mono (fun _ _ h => h) fun _ _ h => h

variable (hW : sc.Resolves W anchor) (side : Side)
include hW

variable (log) in
theorem charges_resolve {held : Purpose → Bool} {tf : Timeframe}
    (hheld : ∀ q, tf.purpose? = some q → held q = false) :
    (sc.resolve tf anchor).Ensures (s, log)
      (fun w t => W tf w ∧
        sc.Charges W anchor side log held t.2 fun p => held p || tf.purpose? == some p)
      fun e t => (∃ fault, e = .store fault) ∧ sc.Charges W anchor side log held t.2 held := by
  have hfind : (sc.resolve tf anchor).Ensures (s, log)
      (fun _ t => sc.Charges W anchor side log held t.2 fun p => held p || tf.purpose? == some p)
      fun e t => (∃ fault, e = .store fault) ∧ sc.Charges W anchor side log held t.2 held := by
    rw [resolve, Session.ensures_bind]
    apply (charges_findWindow hstore side hheld).mono _ fun _ _ he => he
    intro w t ht
    simpa using ht
  exact ((hW tf (s, log)).and hfind).mono (fun _ _ h => h) fun _ _ h => h.2

theorem charges_sharedWindow (hws : ws.Have W) (tf : Timeframe) :
    (sc.sharedWindow tf anchor).Ensures ((s, log), ws)
      (fun w t => W tf w ∧ t.2.Have W ∧
        sc.Charges W anchor side log ws.holds t.1.2 t.2.holds)
      fun e t => (∃ fault, e = .store fault) ∧ t.2.Have W ∧
        sc.Charges W anchor side log ws.holds t.1.2 t.2.holds := by
  cases hg : ws.get? tf with
  | some w =>
    have hs : sc.sharedWindow tf anchor ((s, log), ws) = (pure w, ((s, log), ws)) := by
      simp only [sharedWindow, hg]
    rw [Session.Ensures, hs]
    exact ⟨hws tf w hg, hws, .refl⟩
  | none =>
    have hheld : ∀ q, tf.purpose? = some q → ws.holds q = false :=
      fun q hq => Windows.not_holds hg hq
    have hr := charges_resolve (s := s) hstore log hW side hheld
    cases ho : (sc.resolve tf anchor (s, log)).1.outcome with
    | ok w =>
      obtain ⟨hw, hcharges⟩ := hr.ok ho
      simp only [Session.Ensures, sharedWindow, hg, ho]
      refine ⟨hw, hws.insert hw, ?_⟩
      simpa only [← Windows.holds_insert ws tf w] using hcharges
    | error e =>
      obtain ⟨hfault, hcharges⟩ := hr.error ho
      simp only [Session.Ensures, sharedWindow, hg, ho]
      exact ⟨hfault, hws, hcharges⟩

variable (log) in
theorem charges_planCompiled (hws : ws.Have W) (allow : Option (List String))
    (cs : List Compiled) :
    (sc.planCompiled anchor allow cs).Ensures ((s, log), ws)
      (fun ps t => (∀ p ∈ ps, p.MadeFrom W) ∧ t.2.Have W ∧
        sc.Charges W anchor side log ws.holds t.1.2 t.2.holds)
      fun e t => (∃ fault, e = .store fault) ∧ t.2.Have W ∧
        sc.Charges W anchor side log ws.holds t.1.2 t.2.holds := by
  induction cs generalizing s log ws with
  | nil => exact ⟨fun _ hp => absurd hp List.not_mem_nil, hws, .refl⟩
  | cons c cs ih =>
    rw [planCompiled, Session.ensures_bind]
    apply (charges_sharedWindow hstore hW side hws c.timeframe).mono _ fun _ _ he => he
    rintro w ⟨⟨t, log'⟩, ws'⟩ ⟨hw, hws', hcharges⟩
    simp only [Session.ensures_bind, Session.ensures_warn, Session.ensures_pure]
    apply (ih log' hws').mono
    · rintro ps u ⟨hps, hu, hcharges'⟩
      refine ⟨List.forall_mem_cons.mpr ⟨?_, hps⟩, hu, hcharges.trans hcharges'⟩
      exact ⟨c.timeframe, c.conditions, w, allow, hw, rfl⟩
    · rintro e u ⟨hfault, hu, hcharges'⟩
      exact ⟨hfault, hu, hcharges.trans hcharges'⟩

variable (log) in
/-- With success a screen has asked for the stocks, besides the windows that it did not have. -/
theorem charges_idsWith (hws : ws.Have W) (rule : Rule) (allow : Option (List String)) :
    (sc.idsWith rule anchor allow).Ensures ((s, log), ws)
      (fun _ t => t.2.Have W ∧ sc.Charges W anchor side log ws.holds t.1.2
        fun p => t.2.holds p || .ids side == p)
      fun e t => ((∃ fault, e = .store fault) ∨ (sc.compile rule).outcome = .error e) ∧ t.2.Have W ∧
        sc.Charges W anchor side log ws.holds t.1.2 t.2.holds := by
  rw [idsWith, plansWith]
  simp only [Session.ensures_bind]
  apply Session.ensures_ofNoted
  · intro cs hcs
    apply (charges_planCompiled hstore log hW side hws allow cs).mono _
      fun _ _ he => ⟨.inl he.1, he.2⟩
    rintro ps ⟨⟨t, log'⟩, ws'⟩ ⟨hps, hws', hcharges⟩
    have hasks : sc.Asks W anchor (sc.request ps) := .stocks hps
    rw [Session.ensures_onFirst, hstore]
    apply (DataStore.ensures_askColumn_recorded store _ t log' _).mono
    · rintro _ ⟨u, -⟩ ⟨rows, rfl⟩
      exact ⟨hws', hcharges.trans (.answered hasks rfl rfl)⟩
    · rintro e ⟨u, -⟩ ⟨fault, rfl, rfl⟩
      exact ⟨.inl ⟨fault, rfl⟩, hws', hcharges.trans (.failed hasks)⟩
  · intro e he
    exact ⟨.inr he, hws, .refl⟩

end Screener

end StockScreen

import StockScreen.Proofs.Screening.Windows

/-! # Windows that are taken out and put back

Windows can also be shared by taking them out, making a plan with them, and
putting them back under the timeframe that they are windows of. Where each
window is in its place this comes to the same as leaving it there.
-/

namespace StockScreen

structure Filed where
  timeframe : Timeframe
  window : Window

/-- Windows under timeframes, which need not be their own. -/
def Shelf := Timeframe → Option Filed

namespace Shelf

def remove (sh : Shelf) (tf : Timeframe) : Shelf := fun t => if t = tf then none else sh t

def put (sh : Shelf) (f : Filed) : Shelf := fun t => if t = f.timeframe then some f else sh t

/-- Each window is under its own timeframe. -/
def InPlace (sh : Shelf) : Prop := ∀ tf f, sh tf = some f → f.timeframe = tf

def windows (sh : Shelf) : Windows :=
  ⟨(sh .hourly).map Filed.window, (sh .daily).map Filed.window, (sh .weekly).map Filed.window⟩

theorem get?_windows (sh : Shelf) (tf : Timeframe) :
    sh.windows.get? tf = (sh tf).map Filed.window := by
  cases tf <;> rfl

end Shelf

namespace Windows

def shelf (ws : Windows) : Shelf := fun tf => (ws.get? tf).map (⟨tf, ·⟩)

variable {ws : Windows} {tf : Timeframe} {w : Window}

theorem shelf_eq_of_some (h : ws.get? tf = some w) : ws.shelf tf = some ⟨tf, w⟩ := by
  rw [shelf, h]
  rfl

theorem shelf_eq_of_none (h : ws.get? tf = none) : ws.shelf tf = none := by
  rw [shelf, h]
  rfl

theorem inPlace_shelf (ws : Windows) : ws.shelf.InPlace := by
  intro tf f h
  obtain ⟨w, -, rfl⟩ := Option.map_eq_some_iff.mp h
  rfl

theorem windows_shelf (ws : Windows) : ws.shelf.windows = ws := by
  cases ws
  simp [Shelf.windows, shelf, get?, Function.comp_def]

theorem shelf_windows {sh : Shelf} (h : sh.InPlace) : sh.windows.shelf = sh := by
  funext tf
  rw [shelf, Shelf.get?_windows]
  cases hf : sh tf with
  | none => rfl
  | some f =>
    obtain rfl := h tf f hf
    rfl

theorem put_shelf : ws.shelf.put ⟨tf, w⟩ = (ws.insert tf w).shelf := by
  funext t
  by_cases ht : t = tf
  · subst ht
    simp [Shelf.put, shelf]
  · simp [Shelf.put, shelf, ht, get?_insert_of_ne ht]

theorem remove_shelf_of_none (h : ws.get? tf = none) : ws.shelf.remove tf = ws.shelf := by
  funext t
  by_cases ht : t = tf
  · subst ht
    simp [Shelf.remove, shelf_eq_of_none h]
  · simp [Shelf.remove, ht]

theorem put_remove_shelf (h : ws.get? tf = some w) :
    (ws.shelf.remove tf).put ⟨tf, w⟩ = ws.shelf := by
  funext t
  by_cases ht : t = tf
  · subst ht
    simp [Shelf.put, shelf_eq_of_some h]
  · simp [Shelf.put, Shelf.remove, ht]

end Windows

namespace Screener

variable {σ : Type} (sc : Screener σ) (anchor : String)

/-- Take the window of a timeframe out, or resolve a new one. -/
def takeWindow (tf : Timeframe) : Session (σ × Shelf) Filed := fun (s, sh) =>
  match sh tf with
  | some f => (pure f, (s, sh.remove tf))
  | none => (do
      let w ← (sc.resolve tf anchor).onFirst
      pure ⟨tf, w⟩ : Session (σ × Shelf) Filed) (s, sh.remove tf)

def putWindow (f : Filed) : Session (σ × Shelf) Unit := fun (s, sh) => (pure (), (s, sh.put f))

/-- Plans with windows that are taken out and then put back under their own timeframes. -/
def planTaking (allow : Option (List String)) : List Compiled → Session (σ × Shelf) (List Plan)
  | [] => pure []
  | c :: cs => do
    let f ← sc.takeWindow anchor c.timeframe
    let p := Plan.make c.timeframe c.conditions f.window allow
    .warn (p.warnings f.window)
    putWindow f
    let ps ← planTaking allow cs
    pure (p :: ps)

def plansTaking (rule : Rule) (allow : Option (List String)) :
    Session (σ × Shelf) (List Plan) := do
  let cs ← .ofNoted (sc.compile rule)
  sc.planTaking anchor allow cs

variable {sc anchor} {s t : σ} {ws ws' : Windows} {tf : Timeframe} {w : Window}
  {e : ScreenError}

theorem takeWindow_of_some (h : ws.get? tf = some w) :
    (sc.takeWindow anchor tf).result (s, ws.shelf) = (.ok ⟨tf, w⟩, s, ws.shelf.remove tf) := by
  simp only [Session.result, takeWindow, Windows.shelf_eq_of_some h]
  rfl

theorem takeWindow_of_none (h : ws.get? tf = none) :
    (sc.takeWindow anchor tf).result (s, ws.shelf) =
      (do
        let w ← (sc.resolve tf anchor).onFirst
        pure ⟨tf, w⟩ : Session (σ × Shelf) Filed).result (s, ws.shelf) := by
  simp only [Session.result, takeWindow, Windows.shelf_eq_of_none h,
    Windows.remove_shelf_of_none h]

theorem takeWindow_of_ok (h : (sc.sharedWindow tf anchor).result (s, ws) = (.ok w, t, ws')) :
    ∃ sh : Shelf, (sc.takeWindow anchor tf).result (s, ws.shelf) = (.ok ⟨tf, w⟩, t, sh) ∧
      sh.put ⟨tf, w⟩ = ws'.shelf := by
  cases hw : ws.get? tf with
  | some v =>
    rw [result_sharedWindow_of_some hw] at h
    cases h
    exact ⟨_, takeWindow_of_some hw, Windows.put_remove_shelf hw⟩
  | none =>
    rcases hr : (sc.resolve tf anchor).result s with ⟨e | v, u⟩
    · rw [result_sharedWindow_of_error hw hr] at h
      cases h
    · rw [result_sharedWindow_of_ok hw hr] at h
      cases h
      refine ⟨ws.shelf, ?_, Windows.put_shelf⟩
      rw [takeWindow_of_none hw, Session.result_bind_of_ok (Session.result_onFirst_of hr)]
      rfl

theorem takeWindow_of_error (h : (sc.sharedWindow tf anchor).result (s, ws) = (.error e, t, ws')) :
    (sc.takeWindow anchor tf).result (s, ws.shelf) = (.error e, t, ws'.shelf) := by
  cases hw : ws.get? tf with
  | some v =>
    rw [result_sharedWindow_of_some hw] at h
    cases h
  | none =>
    rcases hr : (sc.resolve tf anchor).result s with ⟨e | v, u⟩
    · rw [result_sharedWindow_of_error hw hr] at h
      cases h
      rw [takeWindow_of_none hw, Session.result_bind_of_error (Session.result_onFirst_of hr)]
    · rw [result_sharedWindow_of_ok hw hr] at h
      cases h

/-- Taking windows out and putting them back comes to the same as leaving them in place. -/
theorem result_planTaking (allow : Option (List String)) (cs : List Compiled) (s : σ)
    (ws : Windows) {ps : Except ScreenError (List Plan)}
    (h : (sc.planCompiled anchor allow cs).result (s, ws) = (ps, t, ws')) :
    (sc.planTaking anchor allow cs).result (s, ws.shelf) = (ps, t, ws'.shelf) := by
  induction cs generalizing s ws ps with
  | nil =>
    cases h
    rfl
  | cons c cs ih =>
    rw [planTaking]
    rcases hw : (sc.sharedWindow c.timeframe anchor).result (s, ws) with ⟨e | w, u, ws₁⟩
    · rw [result_planCompiled_of_error hw] at h
      cases h
      exact Session.result_bind_of_error (takeWindow_of_error hw)
    · rw [result_planCompiled_of_ok hw] at h
      obtain ⟨sh, htake, hput⟩ := takeWindow_of_ok hw
      have hback : (putWindow ⟨c.timeframe, w⟩ : Session (σ × Shelf) Unit).result (u, sh) =
          (.ok (), u, ws₁.shelf) := by
        rw [← hput]
        rfl
      rw [Session.result_bind_of_ok htake, Session.result_bind_of_ok (Session.result_warn _),
        Session.result_bind_of_ok hback]
      rcases hrest : (sc.planCompiled anchor allow cs).result (u, ws₁) with ⟨e | qs, v, ws₂⟩
      · rw [hrest] at h
        cases h
        exact Session.result_bind_of_error (ih _ _ hrest)
      · rw [hrest] at h
        cases h
        exact Session.result_bind_of_ok (ih _ _ hrest)

theorem result_plansTaking {rule : Rule} {allow : Option (List String)}
    {ps : Except ScreenError (List Plan)}
    (h : (sc.plansWith rule anchor allow).result (s, ws) = (ps, t, ws')) :
    (sc.plansTaking anchor rule allow).result (s, ws.shelf) = (ps, t, ws'.shelf) := by
  cases hc : (sc.compile rule).outcome with
  | error e =>
    rw [plansWith, Session.result_bind_of_error (Session.result_ofNoted_of hc)] at h
    cases h
    exact Session.result_bind_of_error (Session.result_ofNoted_of hc)
  | ok cs =>
    rw [plansWith, Session.result_bind_of_ok (Session.result_ofNoted_of hc)] at h
    rw [plansTaking, Session.result_bind_of_ok (Session.result_ofNoted_of hc)]
    exact result_planTaking allow cs s ws h

end Screener

end StockScreen

import StockScreen.Proofs.Screening.Compilation
import StockScreen.Proofs.Screening.Weeks
import StockScreen.Proofs.Screening.Windows

/-! # Screens that run out of room

Room for the dates of a weekly window is made before they are picked. When
there are to be too many the program ends, without a result and without an
error. As long as there is room, or no weekly window is needed, a screen finds
what it finds without this limit.
-/

namespace StockScreen

/-- A session that may end the program. -/
def Abortable (σ α : Type) := σ → Option (Noted α × σ)

namespace Abortable

variable {σ α β : Type}

def bind (x : Abortable σ α) (f : α → Abortable σ β) : Abortable σ β := fun s => do
  let (a, s) ← x s
  match a.outcome with
  | .ok v =>
    let (b, s) ← f v s
    some (⟨b.outcome, a.warnings ++ b.warnings⟩, s)
  | .error e => some (⟨.error e, a.warnings⟩, s)

instance : Monad (Abortable σ) where
  pure v := fun s => some (pure v, s)
  bind := bind

def certain (x : Session σ α) : Abortable σ α := fun s => some (x s)

/-- The program ends where there is no value. -/
def require (v? : Option α) : Abortable σ α := fun s => v?.map fun v => (pure v, s)

variable {x : Session σ α} {x? : Abortable σ α} {f? : α → Abortable σ β} {f : α → Session σ β}
  {s t : σ} {v : α}

theorem certain_pure (v : α) : (pure v : Abortable σ α) = certain (pure v) := rfl

/-- Only the value that a session ends with matters for what comes after it. -/
theorem certain_bind_eq (h : ∀ v t, x.result s = (.ok v, t) → f? v t = some (f v t)) :
    (certain x >>= f?) s = some ((x >>= f) s) := by
  change bind (certain x) f? s = some (x.bind f s)
  simp only [bind, certain, Session.bind, Option.bind_eq_bind, Option.bind_some]
  cases ho : (x s).1.outcome with
  | ok v =>
    have hv := h v (x s).2 (Prod.ext ho rfl)
    simp only [hv, Option.bind_some]
  | error e => rfl

theorem certain_bind (x : Session σ α) (f : α → Session σ β) :
    (certain x >>= fun v => certain (f v)) = certain (x >>= f) :=
  funext fun _ => certain_bind_eq fun _ _ _ => rfl

theorem require_some (v : α) : (require (some v) : Abortable σ α) = certain (pure v) := rfl

theorem bind_of_none (h : x? s = none) : (x? >>= f?) s = none := by
  change bind x? f? s = none
  rw [bind, h]
  rfl

theorem certain_bind_of_none (h : x.result s = (.ok v, t)) (hf : f? v t = none) :
    (certain x >>= f?) s = none := by
  change bind (certain x) f? s = none
  simp only [bind, certain, Option.bind_eq_bind, Option.bind_some,
    Session.outcome_of_result h, Session.state_of_result h, hf, Option.bind_none]

end Abortable

namespace Screener

open Abortable (certain require)

variable {σ : Type} (sc : Screener σ)

def weeklyWindow? (anchor : String) : Abortable σ Window := do
  let dates ← certain (sc.store.askColumn "t" (.weeklyDates anchor sc.settings.weeklyLookback))
  let weeks ← require (Weeks.select? sc.settings.weeklyGap sc.settings.weeklyCount dates)
  certain (.warn (weeks.unreadable.map .unreadableDate))
  pure (.ofDates weeks.kept)

def findWindow? (anchor : String) : Timeframe → Abortable σ Window
  | .weekly => sc.weeklyWindow? anchor
  | tf => certain (sc.findWindow anchor tf)

def resolve? (tf : Timeframe) (anchor : String) : Abortable σ Window := do
  let w ← sc.findWindow? anchor tf
  certain (.warn (if w.dates.isEmpty then [.emptyWindow tf anchor] else []))
  pure w

def sharedWindow? (tf : Timeframe) (anchor : String) : Abortable (σ × Windows) Window :=
  fun (s, ws) =>
    match ws.get? tf with
    | some w => some (pure w, (s, ws))
    | none => (sc.resolve? tf anchor s).map fun (r, s) =>
      match r.outcome with
      | .ok w => (r, (s, ws.insert tf w))
      | .error _ => (r, (s, ws))

def planCompiled? (anchor : String) (allow : Option (List String)) :
    List Compiled → Abortable (σ × Windows) (List Plan)
  | [] => pure []
  | c :: cs => do
    let w ← sc.sharedWindow? c.timeframe anchor
    let p := Plan.make c.timeframe c.conditions w allow
    certain (.warn (p.warnings w))
    let ps ← planCompiled? anchor allow cs
    pure (p :: ps)

def plansWith? (rule : Rule) (anchor : String) (allow : Option (List String)) :
    Abortable (σ × Windows) (List Plan) := do
  let cs ← certain (.ofNoted (sc.compile rule))
  sc.planCompiled? anchor allow cs

def idsWith? (rule : Rule) (anchor : String) (allow : Option (List String)) :
    Abortable (σ × Windows) (List String) := do
  let ps ← sc.plansWith? rule anchor allow
  let ids ← certain (.onFirst (sc.store.askColumn entityColumn (sc.request ps)))
  pure (ascending ids)

/-- The stocks that satisfy a rule, unless there is no room for a window. -/
def ids? (rule : Rule) (anchor : String) (allow : Option (List String)) :
    Abortable σ (List String) := fun s =>
  (sc.idsWith? rule anchor allow (s, {})).map fun (a, (s, _)) => (a, s)

/-- The program goes on with these stocks. -/
def Returns (rule : Rule) (anchor : String) (allow : Option (List String)) (s : σ)
    (ids : List String) : Prop :=
  (sc.ids? rule anchor allow s).map (fun r => r.1.outcome) = some (.ok ids)

variable {sc} {rule : Rule} {tf : Timeframe} {anchor : String} {allow : Option (List String)}
  {cs : List Compiled} {s : σ} {ws : Windows}

/-! ## With room -/

theorem findWindow?_eq (h : tf = .weekly → sc.settings.weeklyCount ≤ greatestCount)
    (anchor : String) : sc.findWindow? anchor tf = certain (sc.findWindow anchor tf) := by
  cases tf with
  | hourly => rfl
  | daily => rfl
  | weekly =>
    simp only [findWindow?, weeklyWindow?, Weeks.select?_of_room (h rfl), Abortable.require_some,
      Abortable.certain_pure, Abortable.certain_bind]
    rfl

theorem sharedWindow?_eq (h : tf = .weekly → sc.settings.weeklyCount ≤ greatestCount)
    (anchor : String) : sc.sharedWindow? tf anchor = certain (sc.sharedWindow tf anchor) := by
  have hresolve : sc.resolve? tf anchor = certain (sc.resolve tf anchor) := by
    simp only [resolve?, findWindow?_eq h, Abortable.certain_pure, Abortable.certain_bind]
    rfl
  funext ⟨s, ws⟩
  simp only [sharedWindow?, hresolve, certain, sharedWindow, Option.map_some]
  cases ws.get? tf with
  | some w => rfl
  | none => cases (sc.resolve tf anchor s).1.outcome <;> rfl

theorem planCompiled?_eq
    (h : ∀ c ∈ cs, c.timeframe = .weekly → sc.settings.weeklyCount ≤ greatestCount)
    (anchor : String) (allow : Option (List String)) :
    sc.planCompiled? anchor allow cs = certain (sc.planCompiled anchor allow cs) := by
  induction cs with
  | nil => rfl
  | cons c cs ih =>
    obtain ⟨hc, hcs⟩ := List.forall_mem_cons.mp h
    simp only [planCompiled?, sharedWindow?_eq hc, ih hcs, Abortable.certain_pure,
      Abortable.certain_bind]
    rfl

/-- With room for all weekly dates, or without a weekly window, nothing ends the program. -/
theorem ids?_of_room (h : .weekly ∈ rule.active → sc.settings.weeklyCount ≤ greatestCount)
    (anchor : String) (allow : Option (List String)) :
    sc.ids? rule anchor allow = certain (sc.ids rule anchor allow) := by
  have hplans : sc.plansWith? rule anchor allow = certain (sc.plansWith rule anchor allow) := by
    funext s
    refine Abortable.certain_bind_eq fun cs t hcs => ?_
    obtain ⟨-, hactive⟩ := (sc.ensures_compile rule).ok cs (congrArg Prod.fst hcs)
    have hweekly : ∀ c ∈ cs, c.timeframe = .weekly → sc.settings.weeklyCount ≤ greatestCount := by
      intro c hc htf
      refine h ?_
      rw [← hactive.timeframes, ← htf]
      exact List.mem_map_of_mem hc
    rw [planCompiled?_eq hweekly, certain]
  have hids : sc.idsWith? rule anchor allow = certain (sc.idsWith rule anchor allow) := by
    simp only [idsWith?, hplans, Abortable.certain_pure, Abortable.certain_bind]
    rfl
  funext s
  simp only [ids?, hids, certain, ids, Session.withFresh, Option.map_some]

/-! ## Without room -/

section

variable (hanswers : ∀ r s, ∃ rows, (sc.store.answer r s).1 = .ok rows)
include hanswers

theorem exists_sharedWindow (htf : tf ≠ .weekly) (hws : ws.get? .weekly = none) (anchor : String)
    (s : σ) : ∃ w t ws', (sc.sharedWindow tf anchor).result (s, ws) = (.ok w, t, ws') ∧
      ws'.get? .weekly = none := by
  cases hw : ws.get? tf with
  | some w => exact ⟨w, s, ws, result_sharedWindow_of_some hw, hws⟩
  | none =>
    have hresolve : ∃ w t, (sc.resolve tf anchor).result s = (.ok w, t) := by
      cases tf with
      | daily => exact ⟨_, s, rfl⟩
      | weekly => exact absurd rfl htf
      | hourly =>
        obtain ⟨rows, hrows⟩ := hanswers
          (.hourlyTimes (anchor ++ " " ++ sc.settings.cutoff.text) sc.settings.hourlyLookback) s
        have hask := DataStore.result_askColumn_of_ok "ts" (Prod.ext hrows rfl)
        exact ⟨_, _, result_resolve_of_ok (Session.result_bind_of_ok hask)⟩
    obtain ⟨w, t, hr⟩ := hresolve
    exact ⟨w, t, ws.insert tf w, result_sharedWindow_of_ok hw hr,
      (Windows.get?_insert_of_ne htf.symm).trans hws⟩

variable (hroom : greatestCount < sc.settings.weeklyCount)
include hroom

theorem resolve?_weekly (anchor : String) (s : σ) : sc.resolve? .weekly anchor s = none := by
  obtain ⟨rows, hrows⟩ := hanswers (.weeklyDates anchor sc.settings.weeklyLookback) s
  refine Abortable.bind_of_none ?_
  have hask := DataStore.result_askColumn_of_ok "t" (Prod.ext hrows rfl)
  refine Abortable.certain_bind_of_none hask ?_
  exact Abortable.bind_of_none (by rw [Weeks.select?_of_no_room hroom]; rfl)

theorem planCompiled?_of_no_room (hws : ws.get? .weekly = none)
    (hcs : ∃ c ∈ cs, c.timeframe = .weekly) (anchor : String) (allow : Option (List String))
    (s : σ) : sc.planCompiled? anchor allow cs (s, ws) = none := by
  induction cs generalizing s ws with
  | nil => simp at hcs
  | cons c cs ih =>
    by_cases htf : c.timeframe = .weekly
    · refine Abortable.bind_of_none ?_
      simp only [sharedWindow?, htf, hws, resolve?_weekly hanswers hroom, Option.map_none]
    · -- A window of hours or of days leaves the one of weeks missing for the plans that follow.
      obtain ⟨c', hc', hweekly⟩ := hcs
      have hrest : c' ∈ cs := (List.mem_cons.mp hc').resolve_left fun h => htf (h ▸ hweekly)
      obtain ⟨w, t, ws', hshared, hws'⟩ := exists_sharedWindow hanswers htf hws anchor s
      rw [planCompiled?, sharedWindow?_eq fun h => absurd h htf]
      refine Abortable.certain_bind_of_none hshared (Abortable.certain_bind_of_none rfl ?_)
      exact Abortable.bind_of_none (ih hws' ⟨c', hrest, hweekly⟩ t)

theorem ids?_of_no_room (hcs : (sc.compile rule).outcome = .ok cs) (hweekly : .weekly ∈ rule.active)
    (anchor : String) (allow : Option (List String)) (s : σ) :
    sc.ids? rule anchor allow s = none := by
  obtain ⟨-, hactive⟩ := (sc.ensures_compile rule).ok cs hcs
  rw [← hactive.timeframes] at hweekly
  obtain ⟨c, hc, htf⟩ := List.mem_map.mp hweekly
  have hempty : Windows.get? {} .weekly = none := rfl
  have hplans := planCompiled?_of_no_room hanswers hroom hempty ⟨c, hc, htf⟩ anchor allow s
  have hids : sc.idsWith? rule anchor allow (s, {}) = none :=
    Abortable.bind_of_none (Abortable.certain_bind_of_none (Session.result_ofNoted_of hcs) hplans)
  rw [ids?, hids, Option.map_none]

end

end Screener

end StockScreen

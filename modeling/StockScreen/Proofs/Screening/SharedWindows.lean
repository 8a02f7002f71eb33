import Mathlib.Data.List.Nodup
import StockScreen.Proofs.Screening.Compilation
import StockScreen.Proofs.Screening.Shelf

/-! # Windows that plans share

Plans for an anchor use the windows that were resolved for it before, and keep
those that they have to resolve. A prompt that does not compile is an error
before any window is asked for. A window that cannot be resolved is an error
that leaves the windows found so far, so that a later call has to ask for the
missing ones only.
-/

namespace StockScreen

open Query (Request)
open DataStore (Exchange answered)

namespace Screener

variable {σ : Type} {sc : Screener σ} {anchor : String} {s t : σ} {ws ws' : Windows}
  {tf : Timeframe} {e : ScreenError}

def recordedPlans (sc : Screener σ) (rule : Rule) (anchor : String)
    (allow : Option (List String)) (s : σ) (ws : Windows) :
    Except ScreenError (List Plan) × (σ × List Exchange) × Windows :=
  (sc.recording.plansWith rule anchor allow).result ((s, []), ws)

def recordedRequests (sc : Screener σ) (rule : Rule) (anchor : String)
    (allow : Option (List String)) (s : σ) (ws : Windows) : List Request :=
  (sc.recordedPlans rule anchor allow s ws).2.1.2.reverse.map (·.request)

variable {rule : Rule} {allow : Option (List String)} {cs : List Compiled}

theorem recordedPlans_of_error (h : (sc.compile rule).outcome = .error e) :
    sc.recordedPlans rule anchor allow s ws = (.error e, (s, []), ws) := by
  refine Session.result_bind_of_error (Session.result_ofNoted_of ?_)
  rw [recording, compile_onStore, h]

theorem recordedPlans_of_ok (h : (sc.compile rule).outcome = .ok cs) :
    sc.recordedPlans rule anchor allow s ws =
      (sc.recording.planCompiled anchor allow cs).result ((s, []), ws) := by
  refine Session.result_bind_of_ok (Session.result_ofNoted_of ?_)
  rw [recording, compile_onStore, h]

theorem nodup_active (rule : Rule) : rule.active.Nodup :=
  List.Nodup.filter _ (by decide)

theorem forall₂_active {ps : List Plan} (hcs : sc.Compiles rule rule.active cs)
    (hps : List.Forall₂ (Planned ws allow) cs ps) :
    List.Forall₂ (fun tf p => ∃ conds w, sc.conditions rule tf = .ok conds ∧
      ws.get? tf = some w ∧ p = .make tf conds w allow) rule.active ps := by
  rw [← hcs.timeframes, List.forall₂_map_left_iff]
  have hall := (List.forall₂_and_left cs ps).mpr ⟨hcs.conditions, hps⟩
  refine hall.imp ?_
  rintro c p ⟨hconds, w, hw, rfl⟩
  exact ⟨c.conditions, w, hconds, hw, rfl⟩

theorem Found.requests {tfs : List Timeframe} {rows : Request → List Row} {log : List Exchange}
    (h : sc.Found anchor tfs rows [] ws log ws') :
    log.reverse.map (·.request) = sc.windowRequests anchor (ws.missing tfs) := by
  rw [h.exchanges, List.append_nil, List.reverse_reverse, answered, List.map_map]
  exact List.map_id _

theorem windowRequests_append (tfs tfs' : List Timeframe) :
    sc.windowRequests anchor (tfs ++ tfs') =
      sc.windowRequests anchor tfs ++ sc.windowRequests anchor tfs' :=
  List.filterMap_append

/-- Nothing but the missing windows is asked for, and with success all of them are. -/
theorem prefix_recordedRequests (hcs : (sc.compile rule).outcome = .ok cs) (s : σ)
    (ws : Windows) :
    sc.recordedRequests rule anchor allow s ws <+:
        sc.windowRequests anchor (ws.missing rule.active) ∧
      ((∃ ps, (sc.recordedPlans rule anchor allow s ws).1 = .ok ps) →
        sc.recordedRequests rule anchor allow s ws =
          sc.windowRequests anchor (ws.missing rule.active)) := by
  have htfs := ((sc.ensures_compile rule).ok cs hcs).2.timeframes
  have hends := sc.result_planCompiled anchor allow cs (htfs ▸ nodup_active rule) s [] ws
  rw [recordedRequests, recordedPlans_of_ok hcs]
  generalize (sc.recording.planCompiled anchor allow cs).result ((s, []), ws) = run at hends
  cases hends with
  | planned hfound hps =>
    rw [htfs] at hfound
    rw [hfound.requests]
    exact ⟨List.prefix_rfl, fun _ => rfl⟩
  | @stopped _ _ _ _ done rest tf r _ hsplit hnone hr hfound =>
    rw [htfs] at hsplit
    have hrequests : sc.windowRequests anchor (ws.missing rule.active) =
        sc.windowRequests anchor (ws.missing done) ++
          r :: sc.windowRequests anchor (ws.missing rest) := by
      rw [hsplit, Windows.missing_append, Windows.missing_cons_of_none hnone,
        windowRequests_append, windowRequests_cons, hr]
      rfl
    simp only [List.reverse_cons, List.map_append, hfound.requests, hrequests]
    refine ⟨⟨sc.windowRequests anchor (ws.missing rest), by simp⟩, ?_⟩
    rintro ⟨ps, hps⟩
    cases hps

/-- How the plans of a rule at an anchor use and keep windows, with the store in a state `s`. -/
structure SharesWindows (sc : Screener σ) (rule : Rule) (anchor : String)
    (allow : Option (List String)) (s : σ) (ws : Windows) : Prop where
  /-- The exchanges are those of the store itself. -/
  exchanged : ∀ ps t log ws', sc.recordedPlans rule anchor allow s ws = (ps, (t, log), ws') →
    (sc.plansWith rule anchor allow).result (s, ws) = (ps, t, ws')
  /-- Taking windows in their places out, and putting them back, comes to the same. -/
  taken : ∀ sh : Shelf, sh.InPlace → sh.windows = ws →
    ∀ ps t ws', (sc.plansWith rule anchor allow).result (s, ws) = (ps, t, ws') →
      ∃ sh' : Shelf, sh'.InPlace ∧ sh'.windows = ws' ∧
        (sc.plansTaking anchor rule allow).result (s, sh) = (ps, t, sh')
  /-- Without prompts nothing is asked. -/
  empty : rule.allPrompts = [] →
    sc.recordedPlans rule anchor allow s ws = (.error .noActiveConditions, (s, []), ws)
  /-- The first prompt that does not compile is the error, and nothing is asked. -/
  refused : ∀ before q after e, rule.allPrompts = before ++ q :: after →
    (∀ q ∈ before, ∃ c, sc.condition q = .ok c) → sc.condition q = .error e →
    sc.recordedPlans rule anchor allow s ws = (.error e, (s, []), ws)
  /-- Otherwise the missing windows are asked for and kept. With success there is a plan for each
  active timeframe, and nothing is left to ask for; after a fault the rest is. -/
  resolved : rule.allPrompts ≠ [] →
    (∀ q ∈ rule.allPrompts, ∃ c, sc.condition q = .ok c) →
    ∃ rows t log ws',
      (∃ ps, sc.recordedPlans rule anchor allow s ws = (.ok ps, (t, log), ws') ∧
        sc.Found anchor rule.active rows [] ws log ws' ∧
        List.Forall₂ (fun tf p => ∃ conds w, sc.conditions rule tf = .ok conds ∧
          ws'.get? tf = some w ∧ p = .make tf conds w allow) rule.active ps ∧
        ∀ s', sc.recordedPlans rule anchor allow s' ws' = (.ok ps, (s', []), ws')) ∨
      ∃ done tf rest r fault, rule.active = done ++ tf :: rest ∧ ws.get? tf = none ∧
        sc.windowRequest? anchor tf = some r ∧
        sc.recordedPlans rule anchor allow s ws =
          (.error (.store fault), (t, ⟨r, .error fault⟩ :: log), ws') ∧
        sc.Found anchor done rows [] ws log ws' ∧
        ∀ s', sc.recordedRequests rule anchor allow s' ws' <+:
            sc.windowRequests anchor (tf :: ws.missing rest) ∧
          ((∃ ps, (sc.recordedPlans rule anchor allow s' ws').1 = .ok ps) →
            sc.recordedRequests rule anchor allow s' ws' =
              sc.windowRequests anchor (tf :: ws.missing rest))

/-- Plans are made with the windows at hand, and with those that are missing. What is found is kept,
also when the store fails, and nothing that is kept gets lost or is asked for again. -/
theorem plans_share_windows (sc : Screener σ) (rule : Rule) (anchor : String)
    (allow : Option (List String)) (s : σ) (ws : Windows) :
    sc.SharesWindows rule anchor allow s ws where
  exchanged := by
    intro ps t log ws' hrun
    have hfollows := plansWith_follows (DataStore.recorded_follows sc.store) rule anchor allow
    have hrun' : ((sc.onStore sc.store.recorded).plansWith rule anchor allow).result
        ((s, []), ws) = (ps, (t, log), ws') := hrun
    have h := hfollows.result ((s, []), ws)
    rw [hrun'] at h
    exact h
  taken := by
    rintro sh hsh rfl ps t ws' hrun
    have htaken := result_plansTaking hrun
    rw [Windows.shelf_windows hsh] at htaken
    exact ⟨ws'.shelf, ws'.inPlace_shelf, ws'.windows_shelf, htaken⟩
  empty := by
    intro hnil
    refine recordedPlans_of_error ?_
    rw [compile, if_pos (rule.isEmpty_iff.mpr hnil)]
    rfl
  refused := by
    intro before q after e hsplit hbefore hq
    exact recordedPlans_of_error (outcome_compile_of_error hsplit hbefore hq)
  resolved := by
    intro hne hall
    obtain ⟨cs, hcs⟩ := exists_compile hne hall
    obtain ⟨-, hactive⟩ := (sc.ensures_compile rule).ok cs hcs
    have htfs := hactive.timeframes
    have hends := sc.result_planCompiled anchor allow cs (htfs ▸ nodup_active rule) s [] ws
    rw [← recordedPlans_of_ok hcs] at hends
    generalize hrun : sc.recordedPlans rule anchor allow s ws = run at hends
    cases hends with
    | @planned rows t log ws' ps hfound hps =>
      rw [htfs] at hfound
      refine ⟨rows, t, log, ws', .inl ⟨ps, rfl, hfound, forall₂_active hactive hps, fun s' => ?_⟩⟩
      rw [recordedPlans_of_ok hcs, result_planCompiled_of_planned hps]
    | @stopped rows t log ws' done rest tf r fault hsplit hnone hr hfound =>
      rw [htfs] at hsplit
      refine ⟨rows, t, log, ws', .inr ⟨done, tf, rest, r, fault, hsplit, hnone, hr, rfl, hfound,
        fun s' => ?_⟩⟩
      have hnd := List.nodup_append'.mp (hsplit ▸ nodup_active rule)
      have hmissing : ws'.missing rule.active = tf :: ws.missing rest := by
        rw [hsplit, hfound.gains.missing_rest fun tf htf hdone => hnd.2.2 hdone htf,
          Windows.missing_cons_of_none hnone]
      rw [← hmissing]
      exact prefix_recordedRequests hcs s' ws'

end Screener

end StockScreen

import Mathlib.Data.List.Forall2
import StockScreen.Proofs.Screening.Fresh
import StockScreen.Proofs.Session.Exchanges

/-! # Windows found one after the other

Planning goes through timeframes in order. It takes the window of each from
those found before, or asks for it and keeps it, and it stops at the first
window that cannot be resolved.
-/

namespace StockScreen

open Query (Request)
open DataStore (Exchange answered)

namespace Windows

def missing (ws : Windows) (tfs : List Timeframe) : List Timeframe :=
  tfs.filter fun tf => (ws.get? tf).isNone

/-- The windows `ws'` are the windows `ws`, together with the new ones of some timeframes. -/
structure Gains (ws ws' : Windows) (tfs : List Timeframe) (find : Timeframe → Window) :
    Prop where
  kept : ∀ tf w, ws.get? tf = some w → ws'.get? tf = some w
  found : ∀ tf ∈ tfs, ws.get? tf = none → ws'.get? tf = some (find tf)
  others : ∀ tf ∉ tfs, ws.get? tf = none → ws'.get? tf = none

variable {ws ws' : Windows} {tf tf' : Timeframe} {tfs : List Timeframe} {w : Window}
  {find find' : Timeframe → Window}

@[simp] theorem get?_insert_self : (ws.insert tf w).get? tf = some w := by cases tf <;> rfl

theorem get?_insert_of_ne (h : tf' ≠ tf) : (ws.insert tf w).get? tf' = ws.get? tf' := by
  cases tf <;> cases tf' <;> first | rfl | exact absurd rfl h

theorem missing_cons_of_some (h : ws.get? tf = some w) :
    ws.missing (tf :: tfs) = ws.missing tfs :=
  List.filter_cons_of_neg (by simp [h])

theorem missing_cons_of_none (h : ws.get? tf = none) :
    ws.missing (tf :: tfs) = tf :: ws.missing tfs :=
  List.filter_cons_of_pos (by simp [h])

theorem missing_append (tfs tfs' : List Timeframe) :
    ws.missing (tfs ++ tfs') = ws.missing tfs ++ ws.missing tfs' := List.filter_append ..

theorem missing_insert (h : tf ∉ tfs) : (ws.insert tf w).missing tfs = ws.missing tfs :=
  List.filter_congr fun _ ht => by rw [get?_insert_of_ne (ne_of_mem_of_not_mem ht h)]

namespace Gains

theorem refl : ws.Gains ws [] find :=
  ⟨fun _ _ h => h, fun _ h => absurd h List.not_mem_nil, fun _ _ h => h⟩

theorem congr (h : ws.Gains ws' tfs find) (hfind : ∀ tf ∈ tfs, find tf = find' tf) :
    ws.Gains ws' tfs find' where
  kept := h.kept
  found tf ht hnone := (h.found tf ht hnone).trans (congrArg some (hfind tf ht))
  others := h.others

theorem of_held (hw : ws.get? tf = some w) (h : ws.Gains ws' tfs find) :
    ws.Gains ws' (tf :: tfs) find where
  kept := h.kept
  found t ht hnone := by
    rcases List.mem_cons.mp ht with rfl | ht
    · cases hw.symm.trans hnone
    · exact h.found t ht hnone
  others t ht := h.others t fun hmem => ht (List.mem_cons_of_mem tf hmem)

theorem of_insert (hnone : ws.get? tf = none) (hnot : tf ∉ tfs)
    (h : (ws.insert tf (find tf)).Gains ws' tfs find) : ws.Gains ws' (tf :: tfs) find where
  kept t w hw := by
    have hne : t ≠ tf := by
      rintro rfl
      cases hnone.symm.trans hw
    exact h.kept t w ((get?_insert_of_ne hne).trans hw)
  found t ht hnone := by
    rcases List.mem_cons.mp ht with rfl | ht
    · exact h.kept t _ get?_insert_self
    · have hne : t ≠ tf := ne_of_mem_of_not_mem ht hnot
      exact h.found t ht ((get?_insert_of_ne hne).trans hnone)
  others t ht hnone := by
    obtain ⟨hne, ht⟩ := List.ne_and_not_mem_of_not_mem_cons ht
    exact h.others t ht ((get?_insert_of_ne hne).trans hnone)

theorem missing_rest (h : ws.Gains ws' tfs find) {rest : List Timeframe}
    (hrest : ∀ tf ∈ rest, tf ∉ tfs) : ws'.missing (tfs ++ rest) = ws.missing rest := by
  have hfound : ∀ tf ∈ tfs, ¬ (ws'.get? tf).isNone := by
    intro tf ht
    cases hw : ws.get? tf with
    | some w => simp [h.kept tf w hw]
    | none => simp [h.found tf ht hw]
  rw [Windows.missing, List.filter_append,
    List.filter_eq_nil_iff.mpr fun tf ht => by simpa using hfound tf ht, List.nil_append]
  refine List.filter_congr fun tf ht => ?_
  cases hw : ws.get? tf with
  | some w => rw [h.kept tf w hw]
  | none => rw [h.others tf (hrest tf ht) hw]

end Gains

end Windows

namespace Screener

variable {σ : Type} (sc : Screener σ) (anchor : String)

/-- What is asked for the window of a timeframe. That of the day comes from the feed. -/
def windowRequest? : Timeframe → Option Request
  | .hourly =>
    some (.hourlyTimes (anchor ++ " " ++ sc.settings.cutoff.text) sc.settings.hourlyLookback)
  | .daily => none
  | .weekly => some (.weeklyDates anchor sc.settings.weeklyLookback)

def windowRequests (tfs : List Timeframe) : List Request :=
  tfs.filterMap (sc.windowRequest? anchor)

def recording : Screener (σ × List Exchange) := sc.onStore sc.store.recorded

variable {sc anchor} {rows rows' : Request → List Row} {tf tf' : Timeframe} {r : Request}
  {tfs : List Timeframe}

theorem windowRequest?_injective (h : sc.windowRequest? anchor tf = some r)
    (h' : sc.windowRequest? anchor tf' = some r) : tf = tf' := by
  cases tf <;> cases tf' <;> first | rfl | cases h <;> cases h'

theorem windowFrom_congr
    (h : ∀ r, sc.windowRequest? anchor tf = some r → rows r = rows' r) :
    sc.windowFrom rows anchor tf = sc.windowFrom rows' anchor tf := by
  cases tf with
  | daily => rfl
  | hourly => rw [windowFrom, windowFrom, h _ rfl]
  | weekly => rw [windowFrom, windowFrom, h _ rfl]

theorem windowRequests_cons :
    sc.windowRequests anchor (tf :: tfs) =
      (sc.windowRequest? anchor tf).toList ++ sc.windowRequests anchor tfs := by
  rw [windowRequests, List.filterMap_cons]
  cases sc.windowRequest? anchor tf <;> rfl

variable (sc anchor tf) in
theorem exists_rows (xs : List Row) (rows : Request → List Row) :
    ∃ rows' : Request → List Row, (∀ r, sc.windowRequest? anchor tf = some r → rows' r = xs) ∧
      ∀ tf' ≠ tf, ∀ r, sc.windowRequest? anchor tf' = some r → rows' r = rows r := by
  classical
  refine ⟨fun r => if sc.windowRequest? anchor tf = some r then xs else rows r,
    fun r hr => if_pos hr, fun tf' hne r hr => if_neg fun h => ?_⟩
  exact hne (windowRequest?_injective hr h)

theorem answered_windowRequests_congr
    (h : ∀ tf ∈ tfs, ∀ r, sc.windowRequest? anchor tf = some r → rows' r = rows r) :
    answered rows' (sc.windowRequests anchor tfs) =
      answered rows (sc.windowRequests anchor tfs) := by
  refine DataStore.answered_congr fun r hr => ?_
  obtain ⟨tf, htf, hr⟩ := List.mem_filterMap.mp hr
  exact h tf htf r hr

theorem reverse_answered_cons (log : List Exchange) :
    (answered rows (sc.windowRequests anchor (tf :: tfs))).reverse ++ log =
      (answered rows (sc.windowRequests anchor tfs)).reverse ++
        (answered rows (sc.windowRequest? anchor tf).toList ++ log) := by
  rw [windowRequests_cons, DataStore.answered_append, List.reverse_append, List.append_assoc]
  cases sc.windowRequest? anchor tf <;> rfl

/-! ## Resolving windows -/

section

variable {sc : Screener σ} {s t : σ} {ws : Windows} {w : Window} {e : ScreenError}

theorem result_resolve_of_ok (h : (sc.findWindow anchor tf).result s = (.ok w, t)) :
    (sc.resolve tf anchor).result s = (.ok w, t) :=
  Session.result_bind_of_ok h

theorem result_resolve_of_error (h : (sc.findWindow anchor tf).result s = (.error e, t)) :
    (sc.resolve tf anchor).result s = (.error e, t) :=
  Session.result_bind_of_error h

theorem result_sharedWindow_of_some (h : ws.get? tf = some w) :
    (sc.sharedWindow tf anchor).result (s, ws) = (.ok w, s, ws) := by
  simp only [Session.result, sharedWindow, h]
  rfl

theorem result_sharedWindow_of_ok (h : ws.get? tf = none)
    (hw : (sc.resolve tf anchor).result s = (.ok w, t)) :
    (sc.sharedWindow tf anchor).result (s, ws) = (.ok w, t, ws.insert tf w) := by
  have ho := Session.outcome_of_result hw
  have hs := Session.state_of_result hw
  simp only [Session.result, sharedWindow, h, ho, hs]

theorem result_sharedWindow_of_error (h : ws.get? tf = none)
    (he : (sc.resolve tf anchor).result s = (.error e, t)) :
    (sc.sharedWindow tf anchor).result (s, ws) = (.error e, t, ws) := by
  have ho : (sc.resolve tf anchor s).1.outcome = .error e := congrArg Prod.fst he
  have hs := Session.state_of_result he
  simp only [Session.result, sharedWindow, h, ho, hs]

end

variable (sc anchor tf) in
theorem result_resolve_recording (s : σ) (log : List Exchange) :
    (∃ xs t, (sc.recording.resolve tf anchor).result (s, log) =
      (.ok (sc.windowFrom (fun _ => xs) anchor tf), t,
        answered (fun _ => xs) (sc.windowRequest? anchor tf).toList ++ log)) ∨
    ∃ r fault t, sc.windowRequest? anchor tf = some r ∧
      (sc.recording.resolve tf anchor).result (s, log) =
        (.error (.store fault), t, ⟨r, .error fault⟩ :: log) := by
  cases tf with
  | daily => exact .inl ⟨[], s, rfl⟩
  | hourly =>
    rcases hans : sc.store.answer (.hourlyTimes (anchor ++ " " ++ sc.settings.cutoff.text)
      sc.settings.hourlyLookback) s with ⟨fault | xs, t⟩
    · exact .inr ⟨_, fault, t, rfl, result_resolve_of_error <| Session.result_bind_of_error <|
        DataStore.result_askColumn_of_fault _ (DataStore.answer_recorded log hans)⟩
    · exact .inl ⟨xs, t, result_resolve_of_ok <| Session.result_bind_of_ok <|
        DataStore.result_askColumn_of_ok _ (DataStore.answer_recorded log hans)⟩
  | weekly =>
    rcases hans : sc.store.answer (.weeklyDates anchor sc.settings.weeklyLookback) s with
      ⟨fault | xs, t⟩
    · exact .inr ⟨_, fault, t, rfl, result_resolve_of_error <| Session.result_bind_of_error <|
        DataStore.result_askColumn_of_fault _ (DataStore.answer_recorded log hans)⟩
    · exact .inl ⟨xs, t, result_resolve_of_ok <| Session.result_bind_of_ok <|
        DataStore.result_askColumn_of_ok _ (DataStore.answer_recorded log hans)⟩

/-! ## Planning -/

def Planned (ws : Windows) (allow : Option (List String)) (c : Compiled) (p : Plan) : Prop :=
  ∃ w, ws.get? c.timeframe = some w ∧ p = .make c.timeframe c.conditions w allow

section

variable {sc : Screener σ} {allow : Option (List String)} {c : Compiled} {cs : List Compiled}
  {st st' : σ × Windows} {w : Window} {e : ScreenError}

theorem result_planCompiled_of_ok
    (h : (sc.sharedWindow c.timeframe anchor).result st = (.ok w, st')) :
    (sc.planCompiled anchor allow (c :: cs)).result st =
      (((sc.planCompiled anchor allow cs).result st').1.map
          (.make c.timeframe c.conditions w allow :: ·),
        ((sc.planCompiled anchor allow cs).result st').2) := by
  rw [planCompiled, Session.result_bind_of_ok h, Session.result_bind_of_ok (Session.result_warn _)]
  rcases hrest : (sc.planCompiled anchor allow cs).result st' with ⟨e | ps, u⟩
  · exact Session.result_bind_of_error hrest
  · exact Session.result_bind_of_ok hrest

theorem result_planCompiled_of_error
    (h : (sc.sharedWindow c.timeframe anchor).result st = (.error e, st')) :
    (sc.planCompiled anchor allow (c :: cs)).result st = (.error e, st') :=
  Session.result_bind_of_error h

theorem result_planCompiled_of_planned {ws : Windows} {ps : List Plan}
    (h : List.Forall₂ (Planned ws allow) cs ps) (s : σ) :
    (sc.planCompiled anchor allow cs).result (s, ws) = (.ok ps, s, ws) := by
  induction h with
  | nil => rfl
  | cons hp _ ih =>
    obtain ⟨w, hw, rfl⟩ := hp
    rw [result_planCompiled_of_ok (result_sharedWindow_of_some hw), ih]
    rfl

end

/-- From a log and windows to later ones the missing windows of some timeframes have been asked
for, in order, and found from these rows. -/
structure Found (sc : Screener σ) (anchor : String) (tfs : List Timeframe)
    (rows : Request → List Row) (log : List Exchange) (ws : Windows) (log' : List Exchange)
    (ws' : Windows) : Prop where
  exchanges : log' = (answered rows (sc.windowRequests anchor (ws.missing tfs))).reverse ++ log
  gains : ws.Gains ws' tfs (sc.windowFrom rows anchor)

section

variable {log log' : List Exchange} {ws ws' : Windows} {w : Window}

theorem Found.nil (rows : Request → List Row) : sc.Found anchor [] rows log ws log ws :=
  ⟨rfl, .refl⟩

theorem Found.of_held (hw : ws.get? tf = some w) (h : sc.Found anchor tfs rows log ws log' ws') :
    sc.Found anchor (tf :: tfs) rows log ws log' ws' where
  exchanges := by rw [Windows.missing_cons_of_some hw, h.exchanges]
  gains := h.gains.of_held hw

theorem Found.of_resolved {xs : List Row} (hw : ws.get? tf = none) (hnot : tf ∉ tfs)
    (h : sc.Found anchor tfs rows
      (answered (fun _ => xs) (sc.windowRequest? anchor tf).toList ++ log)
      (ws.insert tf (sc.windowFrom (fun _ => xs) anchor tf)) log' ws') :
    ∃ rows, sc.Found anchor (tf :: tfs) rows log ws log' ws' := by
  -- Different timeframes ask differently, so one function gives the rows of both.
  obtain ⟨rows', hown, hothers⟩ := sc.exists_rows anchor tf xs rows
  have hne : ∀ tf' ∈ tfs, tf' ≠ tf := fun _ ht => ne_of_mem_of_not_mem ht hnot
  refine ⟨rows', ?_, ?_⟩
  · have hfirst : answered rows' (sc.windowRequest? anchor tf).toList =
        answered (fun _ => xs) (sc.windowRequest? anchor tf).toList :=
      DataStore.answered_congr fun r hr => hown r (Option.mem_toList.mp hr)
    have hrest : answered rows' (sc.windowRequests anchor (ws.missing tfs)) =
        answered rows (sc.windowRequests anchor (ws.missing tfs)) :=
      answered_windowRequests_congr fun tf' ht => hothers tf' (hne tf' (List.mem_of_mem_filter ht))
    rw [Windows.missing_cons_of_none hw, reverse_answered_cons, hfirst, hrest, h.exchanges,
      Windows.missing_insert hnot]
  · have hwindow : sc.windowFrom (fun _ => xs) anchor tf = sc.windowFrom rows' anchor tf :=
      windowFrom_congr fun r hr => (hown r hr).symm
    have hgains := h.gains
    rw [hwindow] at hgains
    refine .of_insert hw hnot (hgains.congr fun tf' ht => windowFrom_congr fun r hr => ?_)
    exact (hothers tf' (hne tf' ht) r hr).symm

end

/-- How planning ends that begins with a log and windows: with plans made from windows that have
been found, or with a fault at a window that was missing. -/
inductive Ends (sc : Screener σ) (anchor : String) (allow : Option (List String))
    (cs : List Compiled) (log : List Exchange) (ws : Windows) :
    Except ScreenError (List Plan) × (σ × List Exchange) × Windows → Prop
  | planned {rows : Request → List Row} {t : σ} {log' : List Exchange} {ws' : Windows}
    {ps : List Plan} (found : sc.Found anchor (cs.map Compiled.timeframe) rows log ws log' ws')
    (plans : List.Forall₂ (Planned ws' allow) cs ps) :
    Ends sc anchor allow cs log ws (.ok ps, (t, log'), ws')
  | stopped {rows : Request → List Row} {t : σ} {log' : List Exchange} {ws' : Windows}
    {done rest : List Timeframe} {tf : Timeframe} {r : Request} {fault : StoreFault}
    (split : cs.map Compiled.timeframe = done ++ tf :: rest) (missing : ws.get? tf = none)
    (request : sc.windowRequest? anchor tf = some r)
    (found : sc.Found anchor done rows log ws log' ws') :
    Ends sc anchor allow cs log ws (.error (.store fault), (t, ⟨r, .error fault⟩ :: log'), ws')

section

variable {allow : Option (List String)} {c : Compiled} {cs : List Compiled} {log : List Exchange}
  {ws : Windows} {w : Window} {ps : Except ScreenError (List Plan)}
  {st : (σ × List Exchange) × Windows}

theorem Ends.of_held (hw : ws.get? c.timeframe = some w)
    (h : sc.Ends anchor allow cs log ws (ps, st)) :
    sc.Ends anchor allow (c :: cs) log ws
      (ps.map (.make c.timeframe c.conditions w allow :: ·), st) := by
  cases h with
  | planned hfound hps =>
    exact .planned (hfound.of_held hw) (.cons ⟨w, hfound.gains.kept _ _ hw, rfl⟩ hps)
  | @stopped _ _ _ _ done rest tf _ _ hsplit hnone hr hfound =>
    have hcons : (c :: cs).map Compiled.timeframe = (c.timeframe :: done) ++ tf :: rest :=
      congrArg (List.cons c.timeframe) hsplit
    exact .stopped hcons hnone hr (hfound.of_held hw)

theorem Ends.of_resolved {xs : List Row} (hw : ws.get? c.timeframe = none)
    (hnot : c.timeframe ∉ cs.map Compiled.timeframe)
    (h : sc.Ends anchor allow cs
      (answered (fun _ => xs) (sc.windowRequest? anchor c.timeframe).toList ++ log)
      (ws.insert c.timeframe (sc.windowFrom (fun _ => xs) anchor c.timeframe)) (ps, st)) :
    sc.Ends anchor allow (c :: cs) log ws (ps.map (.make c.timeframe c.conditions
      (sc.windowFrom (fun _ => xs) anchor c.timeframe) allow :: ·), st) := by
  cases h with
  | planned hfound hps =>
    obtain ⟨rows, hall⟩ := hfound.of_resolved hw hnot
    have hkept := hfound.gains.kept _ _ Windows.get?_insert_self
    exact .planned hall (.cons ⟨_, hkept, rfl⟩ hps)
  | @stopped _ _ _ _ done rest tf _ _ hsplit hnone hr hfound =>
    have hdone : c.timeframe ∉ done := fun h => hnot (hsplit ▸ List.mem_append_left _ h)
    have hne : tf ≠ c.timeframe := by
      rintro rfl
      exact hnot (hsplit ▸ by simp)
    obtain ⟨rows, hall⟩ := hfound.of_resolved hw hdone
    rw [Windows.get?_insert_of_ne hne] at hnone
    have hcons : (c :: cs).map Compiled.timeframe = (c.timeframe :: done) ++ tf :: rest :=
      congrArg (List.cons c.timeframe) hsplit
    exact .stopped hcons hnone hr hall

end

variable (sc anchor) in
/-- The windows that are missing are asked for in order, until one of them cannot be resolved. -/
theorem result_planCompiled (allow : Option (List String)) (cs : List Compiled)
    (hnd : (cs.map Compiled.timeframe).Nodup) (s : σ) (log : List Exchange) (ws : Windows) :
    sc.Ends anchor allow cs log ws
      ((sc.recording.planCompiled anchor allow cs).result ((s, log), ws)) := by
  -- A window that is resolved changes the store and the windows that the rest starts with.
  induction cs generalizing s log ws with
  | nil => exact .planned (.nil fun _ => []) .nil
  | cons c cs ih =>
    obtain ⟨hnot, hnd⟩ := List.nodup_cons.mp hnd
    cases hw : ws.get? c.timeframe with
    | some w =>
      rw [result_planCompiled_of_ok (result_sharedWindow_of_some hw)]
      exact (ih hnd s log ws).of_held hw
    | none =>
      obtain ⟨xs, u, hresolve⟩ | ⟨r, fault, u, hr, hresolve⟩ :=
        sc.result_resolve_recording anchor c.timeframe s log
      · rw [result_planCompiled_of_ok (result_sharedWindow_of_ok hw hresolve)]
        exact (ih hnd u _ _).of_resolved hw hnot
      · rw [result_planCompiled_of_error (result_sharedWindow_of_error hw hresolve)]
        have hfirst : (c :: cs).map Compiled.timeframe =
            [] ++ c.timeframe :: cs.map Compiled.timeframe := rfl
        exact .stopped hfirst hw hr (.nil fun _ => [])

end Screener

end StockScreen

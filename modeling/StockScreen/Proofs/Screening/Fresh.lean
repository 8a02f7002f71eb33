import StockScreen.Proofs.Session.Ensures
import StockScreen.Proofs.Session.Recorded
import StockScreen.Screening.Screener

/-! # What a screen finds

A store may fail now and then and still be truthful: whenever it answers a
request, the answer is the same. Windows, plans and ids are then functions of
those answers, whether they are found anew or with windows kept from before.
-/

namespace StockScreen

namespace DataStore

variable {σ : Type}

/-- A store that answers every request with the rows given for it. -/
def fixed (rows : Query.Request → List Row) : DataStore Unit where
  answer r := fun s => (.ok (rows r), s)

/-- Every answer consists of the rows given for the request, and after a fault `F` holds. -/
structure Truthful (store : DataStore σ) (rows : Query.Request → List Row)
    (F : StoreFault → σ → Prop) : Prop where
  answers : ∀ r s xs, (store.answer r s).1 = .ok xs → xs = rows r
  faults : ∀ r s fault, (store.answer r s).1 = .error fault → F fault (store.answer r s).2

theorem truthful_fixed (rows : Query.Request → List Row) :
    (fixed rows).Truthful rows fun _ _ => False where
  answers := by
    rintro r s xs ⟨⟩
    rfl
  faults := nofun

/-- The error of a store that is in a state after a fault. -/
def Faulted (F : StoreFault → σ → Prop) (e : ScreenError) (s : σ) : Prop :=
  ∃ fault, e = .store fault ∧ F fault s

theorem exists_ok_of_not_faulted {α : Type} {x : Session σ α} {s : σ} {Q : α → σ → Prop}
    (h : x.Ensures s Q (Faulted fun _ _ => False)) :
    ∃ v, (x s).1.outcome = .ok v ∧ Q v (x s).2 := by
  apply (h.mono (fun _ _ hv => hv) _).exists_ok
  rintro e t ⟨_, _, hf⟩
  exact hf

variable {store : DataStore σ} {rows : Query.Request → List Row} {F : StoreFault → σ → Prop}

theorem Truthful.ensures_ask (h : store.Truthful rows F) (r : Query.Request) (s : σ) :
    (store.ask r).Ensures s (fun xs _ => xs = rows r) (Faulted F) :=
  DataStore.ensures_ask (h.answers r s) fun fault hf => ⟨fault, rfl, h.faults r s fault hf⟩

theorem Truthful.ensures_askColumn (h : store.Truthful rows F) (column : String)
    (r : Query.Request) (s : σ) :
    (store.askColumn column r).Ensures s
      (fun xs _ => xs = (rows r).filterMap (Row.text? · column)) (Faulted F) := by
  rw [askColumn, Session.ensures_bind]
  apply (h.ensures_ask r s).mono _ fun _ _ he => he
  rintro xs t rfl
  exact rfl

end DataStore

namespace Screener

open DataStore (Faulted)

variable {σ τ : Type} (sc : Screener σ) (rows : Query.Request → List Row)

def onStore (store : DataStore τ) : Screener τ where
  store := store
  catalogs := sc.catalogs
  settings := sc.settings
  feed := sc.feed
  mode := sc.mode

def windowFrom (anchor : String) : Timeframe → Window
  | .daily => .daily sc.feed anchor sc.settings.dailyWindow
  | .hourly =>
    let cutoff := anchor ++ " " ++ sc.settings.cutoff.text
    .ofDates ((rows (.hourlyTimes cutoff sc.settings.hourlyLookback)).filterMap
      (Row.text? · "ts"))
  | .weekly =>
    let dates := (rows (.weeklyDates anchor sc.settings.weeklyLookback)).filterMap
      (Row.text? · "t")
    .ofDates (Weeks.pick sc.settings.weeklyGap sc.settings.weeklyCount dates).kept

def plansFrom (anchor : String) (allow : Option (List String)) (cs : List Compiled) : List Plan :=
  cs.map fun c => .make c.timeframe c.conditions (sc.windowFrom rows anchor c.timeframe) allow

def idsFrom (rule : Rule) (anchor : String) (allow : Option (List String)) :
    Except ScreenError (List String) :=
  (sc.compile rule).outcome.map fun cs =>
    ascending ((rows (sc.request (sc.plansFrom rows anchor allow cs))).filterMap
      (Row.text? · entityColumn))

/-- The windows kept for an anchor are those that would be found anew. -/
def Coherent (anchor : String) (ws : Windows) : Prop :=
  ∀ tf w, ws.get? tf = some w → w = sc.windowFrom rows anchor tf

variable {sc rows}

theorem coherent_empty (anchor : String) : sc.Coherent rows anchor {} := by
  intro tf w hw
  cases tf <;> cases hw

theorem Coherent.insert {anchor : String} {ws : Windows} (h : sc.Coherent rows anchor ws)
    (tf : Timeframe) : sc.Coherent rows anchor (ws.insert tf (sc.windowFrom rows anchor tf)) := by
  intro tf' w hw
  have hother := h tf' w
  cases tf <;> cases tf' <;> first | exact hother hw | (cases hw; rfl)

section

variable {F : StoreFault → σ → Prop} (h : sc.store.Truthful rows F)
include h

theorem ensures_resolve (tf : Timeframe) (anchor : String) (s : σ) :
    (sc.resolve tf anchor).Ensures s (fun w _ => w = sc.windowFrom rows anchor tf)
      (Faulted F) := by
  have hfind : (sc.findWindow anchor tf).Ensures s
      (fun w _ => w = sc.windowFrom rows anchor tf) (Faulted F) := by
    cases tf with
    | daily => exact rfl
    | hourly =>
      rw [findWindow, hourlyWindow, Session.ensures_bind]
      apply (h.ensures_askColumn ..).mono _ fun _ _ he => he
      rintro xs t rfl
      exact rfl
    | weekly =>
      rw [findWindow, weeklyWindow, Session.ensures_bind]
      apply (h.ensures_askColumn ..).mono _ fun _ _ he => he
      rintro xs t rfl
      exact rfl
  rw [resolve, Session.ensures_bind]
  apply hfind.mono _ fun _ _ he => he
  rintro w t rfl
  exact rfl

theorem ensures_sharedWindow {anchor : String} {ws : Windows} (hws : sc.Coherent rows anchor ws)
    (tf : Timeframe) (s : σ) :
    (sc.sharedWindow tf anchor).Ensures (s, ws)
      (fun w t => w = sc.windowFrom rows anchor tf ∧ sc.Coherent rows anchor t.2)
      fun e t => Faulted F e t.1 ∧ sc.Coherent rows anchor t.2 := by
  cases hg : ws.get? tf with
  | some w =>
    have hs : sc.sharedWindow tf anchor (s, ws) = (pure w, (s, ws)) := by
      simp only [sharedWindow, hg]
    rw [Session.Ensures, hs]
    exact ⟨hws tf w hg, hws⟩
  | none =>
    have hr := ensures_resolve h tf anchor s
    cases ho : (sc.resolve tf anchor s).1.outcome with
    | ok w =>
      have hw := hr.ok ho
      simp only [Session.Ensures, sharedWindow, hg, ho]
      exact ⟨hw, hw ▸ hws.insert tf⟩
    | error e =>
      simp only [Session.Ensures, sharedWindow, hg, ho]
      exact ⟨hr.error ho, hws⟩

theorem ensures_planCompiled {anchor : String} {ws : Windows} (hws : sc.Coherent rows anchor ws)
    (allow : Option (List String)) (cs : List Compiled) (s : σ) :
    (sc.planCompiled anchor allow cs).Ensures (s, ws)
      (fun ps t => ps = sc.plansFrom rows anchor allow cs ∧ sc.Coherent rows anchor t.2)
      fun e t => Faulted F e t.1 ∧ sc.Coherent rows anchor t.2 := by
  induction cs generalizing s ws with
  | nil => exact ⟨rfl, hws⟩
  | cons c cs ih =>
    rw [planCompiled, Session.ensures_bind]
    apply (ensures_sharedWindow h hws c.timeframe s).mono _ fun _ _ he => he
    rintro w ⟨t, ws'⟩ ⟨rfl, hws'⟩
    simp only [Session.ensures_bind, Session.ensures_warn, Session.ensures_pure]
    apply (ih hws' t).mono _ fun _ _ he => he
    rintro ps u ⟨rfl, hu⟩
    exact ⟨rfl, hu⟩

/-- Plans that are asked for are those made from the rows. What fails is the store or the
compilation of the rule. -/
theorem ensures_plans (rule : Rule) (anchor : String) (allow : Option (List String)) (s : σ) :
    (sc.plans rule anchor allow).Ensures s
      (fun ps _ => ∃ cs, (sc.compile rule).outcome = .ok cs ∧
        ps = sc.plansFrom rows anchor allow cs)
      fun e t => Faulted F e t ∨ (sc.compile rule).outcome = .error e := by
  rw [plans, Session.ensures_withFresh, plansWith, Session.ensures_bind]
  apply Session.ensures_ofNoted
  · intro cs hcs
    apply (ensures_planCompiled h (coherent_empty anchor) allow cs s).mono _ fun _ _ he => .inl he.1
    rintro ps t ⟨rfl, -⟩
    exact ⟨cs, hcs, rfl⟩
  · intro e he
    exact .inr he

/-- Ids found with windows kept from before are the ids found anew. What fails is the store or the
compilation of the rule. -/
theorem ensures_idsWith {anchor : String} {ws : Windows} (hws : sc.Coherent rows anchor ws)
    (rule : Rule) (allow : Option (List String)) (s : σ) :
    (sc.idsWith rule anchor allow).Ensures (s, ws)
      (fun ids t => sc.idsFrom rows rule anchor allow = .ok ids ∧ sc.Coherent rows anchor t.2)
      fun e t => (Faulted F e t.1 ∨ (sc.compile rule).outcome = .error e) ∧
        sc.Coherent rows anchor t.2 := by
  rw [idsWith, plansWith]
  simp only [Session.ensures_bind]
  apply Session.ensures_ofNoted
  · intro cs hcs
    apply (ensures_planCompiled h hws allow cs s).mono _ fun _ _ he => ⟨.inl he.1, he.2⟩
    rintro ps ⟨t, ws'⟩ ⟨rfl, hws'⟩
    rw [Session.ensures_onFirst]
    apply (h.ensures_askColumn ..).mono _ fun _ _ he => ⟨.inl he, hws'⟩
    rintro xs u rfl
    exact ⟨by rw [idsFrom, hcs]; rfl, hws'⟩
  · intro e he
    exact ⟨.inr he, hws⟩

end

/-! ## Screens without a memory -/

theorem compileActive_onStore (store : DataStore τ) (rule : Rule) (tfs : List Timeframe) :
    (sc.onStore store).compileActive rule tfs = sc.compileActive rule tfs := by
  induction tfs with
  | nil => rfl
  | cons tf tfs ih => rw [compileActive, compileActive, ih]; rfl

theorem compile_onStore (store : DataStore τ) (rule : Rule) :
    (sc.onStore store).compile rule = sc.compile rule := by
  rw [compile, compile, compileActive_onStore]

theorem idsFrom_onStore (store : DataStore τ) (rule : Rule) (anchor : String)
    (allow : Option (List String)) :
    (sc.onStore store).idsFrom rows rule anchor allow = sc.idsFrom rows rule anchor allow := by
  have hw : (sc.onStore store).windowFrom rows anchor = sc.windowFrom rows anchor := by
    funext tf
    cases tf <;> rfl
  rw [idsFrom, idsFrom, compile_onStore]
  simp only [plansFrom, hw]
  rfl

def freshIds (sc : Screener σ) (rows : Query.Request → List Row) (rule : Rule) (anchor : String)
    (allow : Option (List String)) : Except ScreenError (List String) :=
  ((sc.onStore (.fixed rows)).ids rule anchor allow ()).1.outcome

theorem freshIds_eq (rule : Rule) (anchor : String) (allow : Option (List String)) :
    sc.freshIds rows rule anchor allow = sc.idsFrom rows rule anchor allow := by
  have hids : ((sc.onStore (.fixed rows)).ids rule anchor allow).Ensures ()
      (fun ids _ => sc.idsFrom rows rule anchor allow = .ok ids)
      fun e _ => (sc.compile rule).outcome = .error e := by
    rw [ids, Session.ensures_withFresh]
    apply (ensures_idsWith (DataStore.truthful_fixed rows) (coherent_empty anchor) rule allow
      ()).mono
    · rintro ids t ⟨hi, -⟩
      rwa [idsFrom_onStore] at hi
    · rintro e t ⟨⟨_, _, hf⟩ | hc, -⟩
      · exact hf.elim
      · rwa [compile_onStore] at hc
  unfold freshIds
  cases ho : ((sc.onStore (.fixed rows)).ids rule anchor allow ()).1.outcome with
  | ok ids => exact (hids.ok ho).symm
  | error e => rw [idsFrom, hids.error ho]; rfl

/-! ## Screens over a store that follows another one -/

section

open Session (Follows alongside)

variable {π : τ → σ} {fine : DataStore τ} (h : DataStore.Follows π fine sc.store)
include h

theorem resolve_follows (tf : Timeframe) (anchor : String) :
    Follows π ((sc.onStore fine).resolve tf anchor) (sc.resolve tf anchor) := by
  have hfind : Follows π ((sc.onStore fine).findWindow anchor tf) (sc.findWindow anchor tf) := by
    cases tf with
    | daily => exact Session.follows_pure _
    | hourly => exact (h.askColumn _ _).bind fun _ => Session.follows_pure _
    | weekly =>
      exact (h.askColumn _ _).bind fun _ =>
        (Session.follows_warn _).bind fun _ => Session.follows_pure _
  exact hfind.bind fun _ => (Session.follows_warn _).bind fun _ => Session.follows_pure _

theorem sharedWindow_follows (tf : Timeframe) (anchor : String) :
    Follows (alongside Windows π) ((sc.onStore fine).sharedWindow tf anchor)
      (sc.sharedWindow tf anchor) := by
  rintro ⟨t, ws⟩
  obtain ⟨a, t', hx, hy⟩ := (resolve_follows h tf anchor).run t
  cases hg : ws.get? tf with
  | some w => simp only [sharedWindow, alongside, Prod.map, hg, id, and_self]
  | none =>
    simp only [sharedWindow, alongside, Prod.map, hg, id, hx, hy]
    cases a.outcome <;> exact ⟨rfl, rfl⟩

theorem planCompiled_follows (anchor : String) (allow : Option (List String))
    (cs : List Compiled) :
    Follows (alongside Windows π) ((sc.onStore fine).planCompiled anchor allow cs)
      (sc.planCompiled anchor allow cs) := by
  induction cs with
  | nil => exact Session.follows_pure _
  | cons c cs ih =>
    exact (sharedWindow_follows h _ _).bind fun _ => (Session.follows_warn _).bind fun _ =>
      ih.bind fun _ => Session.follows_pure _

theorem plansWith_follows (rule : Rule) (anchor : String) (allow : Option (List String)) :
    Follows (alongside Windows π) ((sc.onStore fine).plansWith rule anchor allow)
      (sc.plansWith rule anchor allow) := by
  rw [plansWith, plansWith, compile_onStore]
  exact (Session.follows_ofNoted _).bind fun _ => planCompiled_follows h anchor allow _

theorem idsWith_follows (rule : Rule) (anchor : String) (allow : Option (List String)) :
    Follows (alongside Windows π) ((sc.onStore fine).idsWith rule anchor allow)
      (sc.idsWith rule anchor allow) :=
  (plansWith_follows h rule anchor allow).bind fun _ =>
    (h.askColumn _ _).onFirst.bind fun _ => Session.follows_pure _

end

end Screener

end StockScreen

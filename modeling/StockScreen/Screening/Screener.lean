import StockScreen.Plan
import StockScreen.Rule
import StockScreen.Session

/-! # Screening by rules

A rule is compiled as a whole before the store is asked anything. Then each
active timeframe gets a window and a plan, and one request asks for the stocks
that satisfy the plans.
-/

namespace StockScreen

structure Screener (σ : Type) where
  store : DataStore σ
  catalogs : Catalogs
  settings : Settings
  /-- The trading dates, newest first. -/
  feed : List String
  mode : Query.CombineMode := .intersect

structure Compiled where
  timeframe : Timeframe
  conditions : List Condition
  deriving DecidableEq, Repr

namespace Screener

variable {σ : Type} (sc : Screener σ)

def hourlyWindow (anchor : String) : Session σ Window := do
  let cutoff := anchor ++ " " ++ sc.settings.cutoff.text
  let times ← sc.store.askColumn "ts" (.hourlyTimes cutoff sc.settings.hourlyLookback)
  pure (.ofDates times)

def weeklyWindow (anchor : String) : Session σ Window := do
  let dates ← sc.store.askColumn "t" (.weeklyDates anchor sc.settings.weeklyLookback)
  let weeks := Weeks.pick sc.settings.weeklyGap sc.settings.weeklyCount dates
  .warn (weeks.unreadable.map .unreadableDate)
  pure (.ofDates weeks.kept)

def findWindow (anchor : String) : Timeframe → Session σ Window
  | .daily => pure (.daily sc.feed anchor sc.settings.dailyWindow)
  | .hourly => sc.hourlyWindow anchor
  | .weekly => sc.weeklyWindow anchor

def resolve (tf : Timeframe) (anchor : String) : Session σ Window := do
  let w ← sc.findWindow anchor tf
  .warn (if w.dates.isEmpty then [.emptyWindow tf anchor] else [])
  pure w

/-- The window resolved before, or else a new one, which is kept. -/
def sharedWindow (tf : Timeframe) (anchor : String) : Session (σ × Windows) Window :=
  fun (s, ws) =>
    match ws.get? tf with
    | some w => (pure w, (s, ws))
    | none =>
      let (r, s) := sc.resolve tf anchor s
      match r.outcome with
      | .ok w => (r, (s, ws.insert tf w))
      | .error _ => (r, (s, ws))

def compileActive (rule : Rule) : List Timeframe → Noted (List Compiled)
  | [] => pure []
  | tf :: tfs => do
    let cs ← Condition.compileAll sc.catalogs sc.settings.policy tf (rule.prompts tf)
    let rest ← compileActive rule tfs
    pure (⟨tf, cs⟩ :: rest)

/-- The conditions of the active timeframes. A rule without prompts is an error. -/
def compile (rule : Rule) : Noted (List Compiled) :=
  if rule.isEmpty then .fail .noActiveConditions else sc.compileActive rule rule.active

def planCompiled (anchor : String) (allow : Option (List String)) :
    List Compiled → Session (σ × Windows) (List Plan)
  | [] => pure []
  | c :: cs => do
    let w ← sc.sharedWindow c.timeframe anchor
    let p := Plan.make c.timeframe c.conditions w allow
    .warn (p.warnings w)
    let ps ← planCompiled anchor allow cs
    pure (p :: ps)

/-- One plan for each active timeframe. Windows are shared with other calls for the same anchor. -/
def plansWith (rule : Rule) (anchor : String) (allow : Option (List String)) :
    Session (σ × Windows) (List Plan) := do
  let cs ← .ofNoted (sc.compile rule)
  sc.planCompiled anchor allow cs

def plans (rule : Rule) (anchor : String) (allow : Option (List String)) :
    Session σ (List Plan) :=
  .withFresh {} (sc.plansWith rule anchor allow)

def request (ps : List Plan) : Query.Request := .matching sc.mode (ps.map Plan.query)

/-- The statement that asks for the stocks satisfying a rule. -/
def statement (rule : Rule) (anchor : String) (allow : Option (List String)) :
    Session σ String := do
  let ps ← sc.plans rule anchor allow
  pure (sc.request ps).text

def idsWith (rule : Rule) (anchor : String) (allow : Option (List String)) :
    Session (σ × Windows) (List String) := do
  let ps ← sc.plansWith rule anchor allow
  let ids ← .onFirst (sc.store.askColumn entityColumn (sc.request ps))
  pure (ascending ids)

def ids (rule : Rule) (anchor : String) (allow : Option (List String)) :
    Session σ (List String) :=
  .withFresh {} (sc.idsWith rule anchor allow)

end Screener

end StockScreen

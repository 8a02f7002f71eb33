import StockScreen.Backtest.Report
import StockScreen.Backtest.Simulation
import StockScreen.Command.Arguments
import StockScreen.Command.Console
import StockScreen.Config.Load
import StockScreen.Csv.Import
import StockScreen.Indicator.Standard
import StockScreen.Json.Rule
import StockScreen.Screening.Fundamentals
import StockScreen.StockIds

/-! # Running commands

A command reads its configuration first, then its rules and its list of
stocks, and asks the database last. It fails at the first thing that is wrong.
-/

namespace StockScreen.Command

open Console

def openData (config : String) : Session Console Settings := do
  report s!"Loading config from {config}"
  let ini ← .ofNoted (.ofExcept (Config.ofFile config (← fetch config)))
  let settings ← .ofNoted (.ofExcept (Config.settings ini))
  let storeConfig ← .ofNoted (.ofExcept (Config.storeConfig ini))
  openDatabase storeConfig.path
  pure settings

def loadRule (path : String) : Session Console SavedRule := do
  .ofNoted (.ofExcept (SavedRule.load path (← fetch path)))

def allowlist (stocks : Option String) : Session Console (Option (List String)) :=
  match stocks with
  | none => pure none
  | some s => do
    let ids ← .ofNoted (.ofExcept (readStockIds s))
    pure (some ids)

/-- The date asked for, or else the newest trading date. -/
def anchorDate (feed : List String) (date : Option String) : Session Console String :=
  match date, feed with
  | some date, _ => pure date
  | none, newest :: _ => pure newest
  | none, [] => .fail (.dateNotFound "latest")

def runCreateTables (config : String) : Session Console Unit := do
  let _ ← openData config
  Console.createTables
  report s!"Created {Table.all.length} tables"

/-- The rows in a file. A folder can be opened like a file, but has no first record. -/
def readTable (path : String) : Session Console (List Row) := do
  match ← fetch path with
  | .ok bytes => .ofNoted (.ofExcept ((Csv.readRows bytes).mapError .store))
  | .error .isFolder => .fail (.store (Csv.headerFault FileFault.isFolder.message))
  | .error fault => .fail (.fileAccess fault.message)

def runImport (config table file : String) : Session Console Unit := do
  let _ ← openData config
  Console.createTables
  report s!"Reading {file}"
  let rows ← readTable file
  let written ← insert table rows
  report s!"Imported {written} rows into {table}"

def indicatorLine (i : Indicator) : String :=
  match i.fundamentalTable? with
  | some table => s!"{i.name}\t{table}.{i.column}"
  | none => s!"{i.name}\t{i.column}"

def CatalogName.catalog : CatalogName → Catalog
  | .timeframe tf => Standard.catalogs.timeframe tf
  | .fundamentals => Standard.catalogs.fundamentals

def runIndicators (name : CatalogName) : Session Console Unit := do
  printLines ((CatalogName.catalog name).entries.map indicatorLine)
  report ("\nOperators: " ++ commaSeparated (Comparison.all.map Comparison.label))
  match name with
  | .timeframe tf => report ("Offsets:   " ++ commaSeparated tf.offsetLabels)
  | .fundamentals => pure ()

/-- What a rule is screened with: the rule, its screener, the date and the stocks. -/
structure Screening where
  rule : SavedRule
  screener : Screener Console
  anchor : String
  allow : Option (List String)

def prepare (args : ScreenArguments) : Session Console Screening := do
  let settings ← openData args.config
  let rule ← loadRule args.rule
  let allow ← allowlist args.stocks
  let feed ← store.tradingDates
  let anchor ← anchorDate feed args.date
  let mode : Query.CombineMode := if args.union then .union else .intersect
  pure ⟨rule, ⟨store, Standard.catalogs, settings, feed, mode⟩, anchor, allow⟩

def runExplain (args : ScreenArguments) : Session Console Unit := do
  let s ← prepare args
  let statement ← s.screener.statement s.rule.conditions s.anchor s.allow
  report s!"Rule '{s.rule.name}' at {s.anchor}:"
  printLine statement

def runScreen (args : ScreenArguments) : Session Console Unit := do
  let s ← prepare args
  let ids ← s.screener.ids s.rule.conditions s.anchor s.allow
  printLines ids
  report s!"{ids.length} stocks match '{s.rule.name}' at {s.anchor}"

def runFundamentals (config conditions : String) (stocks : Option String) :
    Session Console Unit := do
  let settings ← openData config
  let prompts ← .ofNoted (.ofExcept (FundamentalPrompt.loadAll conditions (← fetch conditions)))
  let allow ← allowlist stocks
  let ids ← Fundamentals.ids store Standard.catalogs.fundamentals settings.policy prompts allow
  printLines ids
  report s!"{ids.length} stocks match {prompts.length} conditions"

def tradeLine (t : Trade) : String :=
  let price (x : Float) : String := Decimal.formatFixed 2 x
  String.intercalate "\t" [t.stock, t.entryDate, price t.entryPrice, t.exitDate,
    price t.exitPrice, Decimal.formatSigned 2 (t.gain * 100) ++ "%"]

def summary (stocks : List String) (s : Simulation) : List String :=
  ["\n=== Backtest ===", s!"Stocks:          {stocks.length}",
    s!"Dates processed: {s.processed}", s!"Dates skipped:   {s.skipped}",
    s!"Closed trades:   {s.closed.length}", s!"Open positions:  {s.openPositions.length}",
    s!"Queries:         {s.stats.rawFetches} raw fetches, {s.stats.buyComputations} buy sets, " ++
      s!"{s.stats.sellComputations} sell sets"] ++
    if s.cancelled then ["Run cancelled before the last date"] else []

def runBacktest (args : BacktestArguments) : Session Console Unit := do
  let settings ← openData args.config
  let buy ← loadRule args.buy
  let sell ← loadRule args.sell
  report s!"Buy rule: {buy.name}  Sell rule: {sell.name}"
  let feed ← store.tradingDates
  let stocks ← match ← allowlist args.stocks with
    | some ids => pure ids
    | none => store.stockIds
  let screener : Screener Console := ⟨store, Standard.catalogs, settings, feed, .intersect⟩
  let backtest : Backtest Console := ⟨screener, buy.conditions, sell.conditions⟩
  let range : DateRange := ⟨args.start, args.finish⟩
  let result ← .withFresh {} (backtest.simulate (fun _ => false) feed stocks range)
  (summary stocks result).forM report
  printLines (result.closed.map tradeLine)
  match args.output with
  | none => pure ()
  | some path =>
    write path (reportBytes result.closed result.openPositions)
    report s!"Trades written to {path}"

def run : Command → Session Console Unit
  | createTables config => runCreateTables config
  | importRows config table file => runImport config table file
  | indicators name => runIndicators name
  | explain args => runExplain args
  | screen args => runScreen args
  | fundamentals config conditions stocks => runFundamentals config conditions stocks
  | backtest args => runBacktest args

/-- What remains of a command: its exit code, its two outputs and its warnings. -/
structure Outcome where
  exitCode : UInt8
  printed : String
  reported : String
  warnings : List Warning

def textOf (lines : List String) : String := String.join (lines.map (· ++ "\n"))

/-- Run a command in a workspace. A failure is reported in a line of its own. -/
def execute (command : Command) (w : Workspace) : Outcome × Workspace :=
  let (r, c) := run command { workspace := w }
  let (code, failure) := match r.outcome with
    | .ok () => (0, [])
    | .error e => (e.exitCode, ["error: " ++ e.message])
  (⟨code, textOf c.printed, textOf (c.reported ++ failure), r.warnings⟩, c.workspace)

end StockScreen.Command

import StockScreen.Backtest.Book
import StockScreen.Backtest.Memo
import StockScreen.Backtest.Report
import StockScreen.Backtest.Simulation
import StockScreen.Calendar
import StockScreen.Cell
import StockScreen.Command.Arguments
import StockScreen.Command.Basic
import StockScreen.Command.Console
import StockScreen.Command.Files
import StockScreen.Command.Run
import StockScreen.Command.Usage
import StockScreen.Command.Workspace
import StockScreen.Comparison
import StockScreen.Condition
import StockScreen.Config.Ini
import StockScreen.Config.Load
import StockScreen.Csv.Import
import StockScreen.Csv.Record
import StockScreen.Database.Affinity
import StockScreen.Database.Archive
import StockScreen.Database.Evaluate
import StockScreen.Database.Insert
import StockScreen.Database.Location
import StockScreen.Database.Schema
import StockScreen.Database.Store
import StockScreen.Decimal.Binary
import StockScreen.Decimal.Extended
import StockScreen.Decimal.Format
import StockScreen.Decimal.Reader
import StockScreen.Decimal.Shortest
import StockScreen.Decimal.Significant
import StockScreen.Decimal.Stepped
import StockScreen.Error
import StockScreen.Indicator.Catalog
import StockScreen.Indicator.Standard
import StockScreen.Json.Decode
import StockScreen.Json.Number
import StockScreen.Json.Record
import StockScreen.Json.Rule
import StockScreen.Json.Skip
import StockScreen.Json.Token
import StockScreen.Json.Write
import StockScreen.Main
import StockScreen.Noted
import StockScreen.Plan
import StockScreen.Proofs.Backtest.Accounts
import StockScreen.Proofs.Backtest.Balance
import StockScreen.Proofs.Backtest.Bounds
import StockScreen.Proofs.Backtest.Cancellation
import StockScreen.Proofs.Backtest.Chronology
import StockScreen.Proofs.Backtest.Coherence
import StockScreen.Proofs.Backtest.Endings
import StockScreen.Proofs.Backtest.Hindsight
import StockScreen.Proofs.Backtest.Interruption
import StockScreen.Proofs.Backtest.Ledger
import StockScreen.Proofs.Backtest.Refinement
import StockScreen.Proofs.Backtest.Replies
import StockScreen.Proofs.Backtest.Report
import StockScreen.Proofs.Backtest.Requests
import StockScreen.Proofs.Backtest.Walk
import StockScreen.Proofs.Calendar
import StockScreen.Proofs.Config.Ini
import StockScreen.Proofs.Config.Integers
import StockScreen.Proofs.Config.RoundTrip
import StockScreen.Proofs.Config.Sizes
import StockScreen.Proofs.Csv.RoundTrip
import StockScreen.Proofs.Database.Insertion
import StockScreen.Proofs.Database.Keyed
import StockScreen.Proofs.Database.Meaning
import StockScreen.Proofs.Database.Texts
import StockScreen.Proofs.Database.Upsert
import StockScreen.Proofs.Decimal.Integer
import StockScreen.Proofs.Indicator.Lookup
import StockScreen.Proofs.Json.Lexing
import StockScreen.Proofs.Json.Reading
import StockScreen.Proofs.Json.RoundTrip
import StockScreen.Proofs.Lists
import StockScreen.Proofs.Ordered
import StockScreen.Proofs.Planning.Aliases
import StockScreen.Proofs.Planning.Allowlist
import StockScreen.Proofs.Planning.Identifiers
import StockScreen.Proofs.Planning.Joins
import StockScreen.Proofs.Planning.Meaning
import StockScreen.Proofs.Planning.Partners
import StockScreen.Proofs.Planning.Selection
import StockScreen.Proofs.Query.Compound
import StockScreen.Proofs.Query.Grammar
import StockScreen.Proofs.Query.Lexing
import StockScreen.Proofs.Query.NestedLoops
import StockScreen.Proofs.Query.RoundTrip
import StockScreen.Proofs.Query.SetOperators
import StockScreen.Proofs.Query.Star
import StockScreen.Proofs.Query.Token
import StockScreen.Proofs.Screening.Combination
import StockScreen.Proofs.Screening.Compilation
import StockScreen.Proofs.Screening.Fresh
import StockScreen.Proofs.Screening.Fundamentals
import StockScreen.Proofs.Screening.Hindsight
import StockScreen.Proofs.Screening.Labels
import StockScreen.Proofs.Screening.NewestFirst
import StockScreen.Proofs.Screening.Offsets
import StockScreen.Proofs.Screening.Resolution
import StockScreen.Proofs.Screening.Room
import StockScreen.Proofs.Screening.SharedWindows
import StockScreen.Proofs.Screening.Shelf
import StockScreen.Proofs.Screening.Spelling
import StockScreen.Proofs.Screening.Weeks
import StockScreen.Proofs.Screening.Windows
import StockScreen.Proofs.Session.Ensures
import StockScreen.Proofs.Session.Exchanges
import StockScreen.Proofs.Session.Recorded
import StockScreen.Proofs.Session.Result
import StockScreen.Proofs.StockIds
import StockScreen.Proofs.Text.Blank
import StockScreen.Proofs.Text.ByteOrder
import StockScreen.Proofs.Text.Utf8
import StockScreen.Query.Depth
import StockScreen.Query.OpenQuote
import StockScreen.Query.Request
import StockScreen.Query.Select
import StockScreen.Rule
import StockScreen.Screening.Fundamentals
import StockScreen.Screening.Screener
import StockScreen.Session
import StockScreen.StockIds
import StockScreen.Text.Basic
import StockScreen.Text.CaseTable
import StockScreen.Text.HiddenTable
import StockScreen.Text.LetterTable
import StockScreen.Text.LowerCase
import StockScreen.Text.Quoted
import StockScreen.Text.Utf8
import StockScreen.Timeframe
import StockScreen.Window

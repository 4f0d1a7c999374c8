import QuoteFeed.Market.Columns
import QuoteFeed.Quote.Basic
import QuoteFeed.Wire.Outbound
import QuoteFeed.Wire.Inbound
import QuoteFeed.Market.IdSet
import QuoteFeed.Timer
import QuoteFeed.Cache
import QuoteFeed.Demand
import QuoteFeed.Market.Changes
import QuoteFeed.Settings
import QuoteFeed.Tracing
import QuoteFeed.Text.Quoted
import QuoteFeed.Stream.State
import QuoteFeed.Report.Metrics
import QuoteFeed.Report.Note
import QuoteFeed.Report.Basic
import QuoteFeed.Catalog
import QuoteFeed.Desk
import QuoteFeed.Stream.Basic
import QuoteFeed.Stream.Sync
import QuoteFeed.Service.Basic
import QuoteFeed.Service.Query
import QuoteFeed.Service.Schedule
import QuoteFeed.Surface.Respond
import QuoteFeed.Json.Plain
import QuoteFeed.Rehearsal
import QuoteFeed.Socket
import QuoteFeed.Fetch
import QuoteFeed.EnvFile
import QuoteFeed.Program
import QuoteFeed.Proofs.Stream.Link
import QuoteFeed.Proofs.Stream.Run
import QuoteFeed.Proofs.Stream.Coherence
import QuoteFeed.Proofs.Market.IdSet
import QuoteFeed.Proofs.Stream.Switches
import QuoteFeed.Proofs.Stream.Ledger
import QuoteFeed.Proofs.Stream.Frames
import QuoteFeed.Proofs.Stream.Sync
import QuoteFeed.Proofs.Catalog
import QuoteFeed.Proofs.Demand
import QuoteFeed.Proofs.Service.Run
import QuoteFeed.Proofs.Service.Interest
import QuoteFeed.Proofs.Stream.Session
import QuoteFeed.Proofs.Stream.Alike
import QuoteFeed.Proofs.Stream.Stale
import QuoteFeed.Proofs.Service.Connection
import QuoteFeed.Proofs.Service.Rest
import QuoteFeed.Proofs.Cache
import QuoteFeed.Proofs.Cache.History
import QuoteFeed.Proofs.Desk
import QuoteFeed.Proofs.Service.Quotes
import QuoteFeed.Proofs.Service.Health
import QuoteFeed.Proofs.Service.SingleFlight
import QuoteFeed.Proofs.Service.Answers
import QuoteFeed.Proofs.Service.Faults
import QuoteFeed.Proofs.Text.Numeral
import QuoteFeed.Proofs.Json.Grammar
import QuoteFeed.Proofs.Json.Tokens
import QuoteFeed.Proofs.Json.Reader
import QuoteFeed.Proofs.Json.Writer
import QuoteFeed.Proofs.Json.Record
import QuoteFeed.Proofs.Decimal.Text
import QuoteFeed.Proofs.Wire.Inbound
import QuoteFeed.Proofs.Stream.Timely
import QuoteFeed.Proofs.Stream.Heartbeat
import QuoteFeed.Proofs.Service.Timely
import QuoteFeed.Proofs.Service.RefreshLoop
import QuoteFeed.Proofs.Stream.Interleaving
import QuoteFeed.Proofs.Counts
import QuoteFeed.Proofs.Desk.Verdict
import QuoteFeed.Proofs.Stream.Accounts
import QuoteFeed.Proofs.Service.Accounts
import QuoteFeed.Proofs.Service.Release
import QuoteFeed.Proofs.Wire.Outbound
import QuoteFeed.Proofs.Time.Calendar
import QuoteFeed.Proofs.Time.Timestamp
import QuoteFeed.Proofs.Quote.Text
import QuoteFeed.Proofs.Decimal.Rounding
import QuoteFeed.Proofs.Decimal.Quotient
import QuoteFeed.Proofs.Decimal.Product
import QuoteFeed.Proofs.Market.Rules
import QuoteFeed.Proofs.Market.Digits
import QuoteFeed.Proofs.Quote.Average
import QuoteFeed.Proofs.Catalog.Lookups
import QuoteFeed.Proofs.Demand.History
import QuoteFeed.Proofs.Json.Acceptance
import QuoteFeed.Proofs.Wire.Framing
import QuoteFeed.Proofs.Market.Columns
import QuoteFeed.Proofs.Service.RefreshCycle
import QuoteFeed.Proofs.Settings
import QuoteFeed.Proofs.Service.Outage
import QuoteFeed.Proofs.Insertions
import QuoteFeed.Proofs.Quote.EmptyLevels
import QuoteFeed.Proofs.Settings.Precision
import QuoteFeed.Proofs.Stream.Gauges
import QuoteFeed.Proofs.Service.Gauges
import QuoteFeed.Proofs.Socket

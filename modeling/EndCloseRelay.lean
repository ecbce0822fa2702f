import EndCloseRelay.App.AdminPlane
import EndCloseRelay.App.Announcements
import EndCloseRelay.App.AuditLaw
import EndCloseRelay.App.ConfigStore
import EndCloseRelay.App.Configuration
import EndCloseRelay.App.Database
import EndCloseRelay.App.Drafts
import EndCloseRelay.App.FailedLoads
import EndCloseRelay.App.Gate
import EndCloseRelay.App.Metrics
import EndCloseRelay.App.Migrations
import EndCloseRelay.App.Ownership
import EndCloseRelay.App.Persistence
import EndCloseRelay.App.RemoteConfig
import EndCloseRelay.App.RemoteRoutes
import EndCloseRelay.App.RemoteRuns
import EndCloseRelay.App.RemoteServing
import EndCloseRelay.App.Reporter
import EndCloseRelay.App.Secrets
import EndCloseRelay.App.Startup
import EndCloseRelay.App.Vouching
import EndCloseRelay.Calendar.Dates
import EndCloseRelay.Config.Document
import EndCloseRelay.Config.Routes
import EndCloseRelay.Config.Schema
import EndCloseRelay.Config.Stored
import EndCloseRelay.Config.Strays
import EndCloseRelay.Engine.Accounting
import EndCloseRelay.Engine.Acknowledgement
import EndCloseRelay.Engine.Admission
import EndCloseRelay.Engine.Codec
import EndCloseRelay.Engine.Deduplication
import EndCloseRelay.Engine.Errors
import EndCloseRelay.Engine.EventFilters
import EndCloseRelay.Engine.Flush
import EndCloseRelay.Engine.Hooks
import EndCloseRelay.Engine.Ingest
import EndCloseRelay.Engine.Inspection
import EndCloseRelay.Engine.Isolation
import EndCloseRelay.Engine.Killswitch
import EndCloseRelay.Engine.Leases
import EndCloseRelay.Engine.Leftovers
import EndCloseRelay.Engine.Lifecycle
import EndCloseRelay.Engine.Manifest
import EndCloseRelay.Engine.MemoryRecords
import EndCloseRelay.Engine.MemoryStore
import EndCloseRelay.Engine.NoLoss
import EndCloseRelay.Engine.Pacing
import EndCloseRelay.Engine.Payloads
import EndCloseRelay.Engine.Posting
import EndCloseRelay.Engine.Reception
import EndCloseRelay.Engine.RecordStore
import EndCloseRelay.Engine.Replays
import EndCloseRelay.Engine.Reposts
import EndCloseRelay.Engine.Representation
import EndCloseRelay.Engine.Resolution
import EndCloseRelay.Engine.Retention
import EndCloseRelay.Engine.RowChange
import EndCloseRelay.Engine.Store
import EndCloseRelay.Engine.StoreContract
import EndCloseRelay.Engine.System
import EndCloseRelay.Forward.Accounts
import EndCloseRelay.Forward.Allowlist
import EndCloseRelay.Forward.Amounts
import EndCloseRelay.Forward.Backoff
import EndCloseRelay.Forward.BatchKeys
import EndCloseRelay.Forward.BatchProtocol
import EndCloseRelay.Forward.BatchWork
import EndCloseRelay.Forward.Changes
import EndCloseRelay.Forward.Client
import EndCloseRelay.Forward.Denylist
import EndCloseRelay.Forward.Digests
import EndCloseRelay.Forward.Disclosure
import EndCloseRelay.Forward.Dispatcher
import EndCloseRelay.Forward.Enrich
import EndCloseRelay.Forward.Enrichment
import EndCloseRelay.Forward.Exposure
import EndCloseRelay.Forward.Isolation
import EndCloseRelay.Forward.KeyCollisions
import EndCloseRelay.Forward.Licence
import EndCloseRelay.Forward.Mapper
import EndCloseRelay.Forward.Mapping
import EndCloseRelay.Forward.Outline
import EndCloseRelay.Forward.Pacing
import EndCloseRelay.Forward.Results
import EndCloseRelay.Forward.Scheduling
import EndCloseRelay.Forward.SensitiveFields
import EndCloseRelay.Forward.SignOff
import EndCloseRelay.Forward.Stewardship
import EndCloseRelay.Forward.Supplies
import EndCloseRelay.Forward.Wakeups
import EndCloseRelay.Forward.WellFormed
import EndCloseRelay.Ingest.Adapters
import EndCloseRelay.Ingest.Receivable
import EndCloseRelay.Interaction.Coupling
import EndCloseRelay.Interaction.Journal
import EndCloseRelay.Interaction.Machine
import EndCloseRelay.Interaction.Program
import EndCloseRelay.Interaction.Transaction
import EndCloseRelay.Js.Json
import EndCloseRelay.Js.JsonText
import EndCloseRelay.Js.Number
import EndCloseRelay.Js.RegExp
import EndCloseRelay.Js.Text
import EndCloseRelay.Js.Utf16
import EndCloseRelay.Mask.Completeness
import EndCloseRelay.Mask.Defaults
import EndCloseRelay.Mask.Paths
import EndCloseRelay.Mask.Positions
import EndCloseRelay.Mask.Spellings
import EndCloseRelay.Relational.Grouping
import EndCloseRelay.Relational.Table
import EndCloseRelay.Scanning.Base64
import EndCloseRelay.Scanning.Borders
import EndCloseRelay.Scanning.Delimited
import EndCloseRelay.Scanning.Globs
import EndCloseRelay.Scanning.Pieces
import EndCloseRelay.Sqlite.Agreement
import EndCloseRelay.Sqlite.Busy
import EndCloseRelay.Sqlite.Events
import EndCloseRelay.Sqlite.Inspection
import EndCloseRelay.Sqlite.Records
import EndCloseRelay.Sqlite.RowIds
import EndCloseRelay.Sqlite.Stores

import DeviceScope.Cache.Basic
import DeviceScope.Cache.Refresh
import DeviceScope.Config.Basic
import DeviceScope.Config.File
import DeviceScope.Config.Form
import DeviceScope.Directory.Basic
import DeviceScope.Directory.Listing
import DeviceScope.Disk.Basic
import DeviceScope.Disk.Path
import DeviceScope.Fault
import DeviceScope.Identity.Basic
import DeviceScope.Identity.Form
import DeviceScope.Identity.Key
import DeviceScope.Inspector.Arguments
import DeviceScope.Inspector.Basic
import DeviceScope.Inspector.Report
import DeviceScope.Inspector.Request
import DeviceScope.Json.Basic
import DeviceScope.Json.Number
import DeviceScope.Json.Order
import DeviceScope.Json.Printer
import DeviceScope.Json.Reader
import DeviceScope.Json.Shape
import DeviceScope.Ledger
import DeviceScope.Main
import DeviceScope.Notifier
import DeviceScope.Proofs.Cache.Announcement
import DeviceScope.Proofs.Cache.Decision
import DeviceScope.Proofs.Cache.Mirror
import DeviceScope.Proofs.Cache.Presence
import DeviceScope.Proofs.Cache.Writing
import DeviceScope.Proofs.Config.Form
import DeviceScope.Proofs.Directory.Desk
import DeviceScope.Proofs.Directory.Draining
import DeviceScope.Proofs.Directory.History
import DeviceScope.Proofs.Directory.Listing
import DeviceScope.Proofs.Directory.Memory
import DeviceScope.Proofs.Disk.Basic
import DeviceScope.Proofs.Disk.Operation
import DeviceScope.Proofs.Disk.Settled
import DeviceScope.Proofs.Identity.Form
import DeviceScope.Proofs.Identity.Key
import DeviceScope.Proofs.Identity.Layout
import DeviceScope.Proofs.Inspector.Editing
import DeviceScope.Proofs.Inspector.Opening
import DeviceScope.Proofs.Json.Ending
import DeviceScope.Proofs.Json.Fields
import DeviceScope.Proofs.Json.Layout
import DeviceScope.Proofs.Json.Number
import DeviceScope.Proofs.Json.Reading
import DeviceScope.Proofs.Json.Spelling
import DeviceScope.Proofs.Ledger
import DeviceScope.Proofs.Notifier.Delivery
import DeviceScope.Proofs.Notifier.Reading
import DeviceScope.Proofs.Record.Form
import DeviceScope.Proofs.Record.Layout
import DeviceScope.Proofs.Service.Agreement
import DeviceScope.Proofs.Service.Answering
import DeviceScope.Proofs.Service.Bookkeeping
import DeviceScope.Proofs.Service.Completion
import DeviceScope.Proofs.Service.Course
import DeviceScope.Proofs.Service.Cycle
import DeviceScope.Proofs.Service.Diary
import DeviceScope.Proofs.Service.Ending
import DeviceScope.Proofs.Service.Exclusion
import DeviceScope.Proofs.Service.Freshness
import DeviceScope.Proofs.Service.Independence
import DeviceScope.Proofs.Service.Journal
import DeviceScope.Proofs.Service.Line
import DeviceScope.Proofs.Service.Moves
import DeviceScope.Proofs.Service.Notification
import DeviceScope.Proofs.Service.Outage
import DeviceScope.Proofs.Service.Ownership
import DeviceScope.Proofs.Service.PhaseHistory
import DeviceScope.Proofs.Service.Phases
import DeviceScope.Proofs.Service.Punctuality
import DeviceScope.Proofs.Service.Reckoning
import DeviceScope.Proofs.Service.Reconciliation
import DeviceScope.Proofs.Service.Refreshing
import DeviceScope.Proofs.Service.Requests
import DeviceScope.Proofs.Service.Restart
import DeviceScope.Proofs.Service.Revocation
import DeviceScope.Proofs.Service.Stages
import DeviceScope.Proofs.Service.Staleness
import DeviceScope.Proofs.Service.Supervision
import DeviceScope.Proofs.Service.Timetable
import DeviceScope.Proofs.Service.Verification
import DeviceScope.Proofs.Service.Waking
import DeviceScope.Proofs.Service.Walking
import DeviceScope.Proofs.Store.Contract
import DeviceScope.Proofs.Store.Damage
import DeviceScope.Proofs.Store.Durability
import DeviceScope.Proofs.Store.Fallible
import DeviceScope.Proofs.Store.File
import DeviceScope.Proofs.Store.Interchange
import DeviceScope.Proofs.Store.Saving
import DeviceScope.Proofs.Store.Snapshot
import DeviceScope.Proofs.Store.Writable
import DeviceScope.Proofs.Text.Run
import DeviceScope.Proofs.Text.Utf8
import DeviceScope.Proofs.Time.Calendar
import DeviceScope.Proofs.Time.SpanText
import DeviceScope.Proofs.Time.Timestamp
import DeviceScope.Proofs.Toml.Document
import DeviceScope.Proofs.Toml.Value
import DeviceScope.Record.Basic
import DeviceScope.Record.Form
import DeviceScope.Rehearsal.Basic
import DeviceScope.Rehearsal.Medium
import DeviceScope.Service.Basic
import DeviceScope.Service.Cycle
import DeviceScope.Service.Run
import DeviceScope.Service.Task
import DeviceScope.Service.World
import DeviceScope.Store.Basic
import DeviceScope.Store.File
import DeviceScope.Store.Guarded
import DeviceScope.Store.Memory
import DeviceScope.Store.Snapshot
import DeviceScope.Text.Blank
import DeviceScope.Text.Decimal
import DeviceScope.Text.Grid
import DeviceScope.Text.Pieces
import DeviceScope.Text.Utf8
import DeviceScope.Text.Width
import DeviceScope.Time.Calendar
import DeviceScope.Time.Span
import DeviceScope.Time.SpanText
import DeviceScope.Time.Timestamp
import DeviceScope.Toml.Document
import DeviceScope.Toml.Quoted
import DeviceScope.Toml.Scalar
import DeviceScope.Toml.Value

import CallGate.Approval.Basic
import CallGate.Approval.Queue
import CallGate.Approval.Target
import CallGate.Archive.Basic
import CallGate.Archive.Edit
import CallGate.Archive.Error
import CallGate.Archive.Location
import CallGate.Archive.Options
import CallGate.Archive.Shelf
import CallGate.Backend.Adapters
import CallGate.Backend.LiveGuard
import CallGate.Backend.Mode
import CallGate.Backend.Simulator
import CallGate.Call.Outcome
import CallGate.Call.Receipt
import CallGate.Call.Request
import CallGate.Call.Response
import CallGate.Call.Timestamp
import CallGate.Digest.Content
import CallGate.Digest.KeyStream
import CallGate.Digest.Sha256
import CallGate.Disk
import CallGate.Document.Decoder
import CallGate.Document.Reads
import CallGate.Document.Tagged
import CallGate.Document.Tree
import CallGate.Episode.Basic
import CallGate.Episode.Criteria
import CallGate.Episode.Run
import CallGate.Episode.State
import CallGate.Json.Path
import CallGate.Json.Quoted
import CallGate.Json.Reader
import CallGate.Json.Value
import CallGate.Json.Written
import CallGate.KeyMap
import CallGate.Number.Binary64
import CallGate.Number.Notation
import CallGate.Number.Shortest
import CallGate.Operation.Basic
import CallGate.Operation.Catalog
import CallGate.Operation.Id
import CallGate.Operation.Registry
import CallGate.Policy.Basic
import CallGate.Policy.Decision
import CallGate.Policy.Gate
import CallGate.Proofs.Approval.Askers
import CallGate.Proofs.Approval.Change
import CallGate.Proofs.Approval.Entries
import CallGate.Proofs.Approval.Lifecycle
import CallGate.Proofs.Approval.Newest
import CallGate.Proofs.Approval.Queue
import CallGate.Proofs.Approval.Share
import CallGate.Proofs.Approval.Target
import CallGate.Proofs.Archive.Ledger
import CallGate.Proofs.Archive.Receipts
import CallGate.Proofs.Archive.Replacement
import CallGate.Proofs.Archive.RoundTrip
import CallGate.Proofs.Archive.RowEdits
import CallGate.Proofs.Archive.Sets
import CallGate.Proofs.Archive.Table
import CallGate.Proofs.Archive.Tampering
import CallGate.Proofs.Backend.Office
import CallGate.Proofs.Call.Fingerprint
import CallGate.Proofs.Call.Identity
import CallGate.Proofs.Call.ReadBack
import CallGate.Proofs.Call.ReceiptForm
import CallGate.Proofs.Computation
import CallGate.Proofs.Document.Calls
import CallGate.Proofs.Document.Fields
import CallGate.Proofs.Document.Names
import CallGate.Proofs.Document.Record
import CallGate.Proofs.Document.Restored
import CallGate.Proofs.Document.Sessions
import CallGate.Proofs.Document.Stable
import CallGate.Proofs.Document.Values
import CallGate.Proofs.Document.Workflows
import CallGate.Proofs.Episode.Again
import CallGate.Proofs.Episode.Attempts
import CallGate.Proofs.Episode.Blocking
import CallGate.Proofs.Episode.Bounds
import CallGate.Proofs.Episode.Budget
import CallGate.Proofs.Episode.Calls
import CallGate.Proofs.Episode.Consistency
import CallGate.Proofs.Episode.Criteria
import CallGate.Proofs.Episode.Denying
import CallGate.Proofs.Episode.Ending
import CallGate.Proofs.Episode.Failing
import CallGate.Proofs.Episode.History
import CallGate.Proofs.Episode.Recall
import CallGate.Proofs.Episode.Receipts
import CallGate.Proofs.Episode.Replay
import CallGate.Proofs.Episode.Success
import CallGate.Proofs.Episode.Turns
import CallGate.Proofs.Episode.Underway
import CallGate.Proofs.Episode.Verdicts
import CallGate.Proofs.Json.Alike
import CallGate.Proofs.Json.OneLine
import CallGate.Proofs.Json.Parts
import CallGate.Proofs.Json.Quoted
import CallGate.Proofs.Json.Reading
import CallGate.Proofs.Json.Settled
import CallGate.Proofs.KeyMap
import CallGate.Proofs.Number.Notation
import CallGate.Proofs.Number.Rounding
import CallGate.Proofs.Number.Shortest
import CallGate.Proofs.Operation.Growth
import CallGate.Proofs.Operation.Integrity
import CallGate.Proofs.Operation.Legible
import CallGate.Proofs.Operation.Registered
import CallGate.Proofs.Operation.Registry
import CallGate.Proofs.Operation.Services
import CallGate.Proofs.Policy.Evaluation
import CallGate.Proofs.Policy.Gate
import CallGate.Proofs.Redaction.Clearing
import CallGate.Proofs.Redaction.Complete
import CallGate.Proofs.Redaction.Matching
import CallGate.Proofs.Redaction.Secrets
import CallGate.Proofs.Session.Accounting
import CallGate.Proofs.Session.Asking
import CallGate.Proofs.Session.Blocked
import CallGate.Proofs.Session.Calls
import CallGate.Proofs.Session.Closing
import CallGate.Proofs.Session.Decisions
import CallGate.Proofs.Session.Following
import CallGate.Proofs.Session.Gating
import CallGate.Proofs.Session.Isolation
import CallGate.Proofs.Session.Lines
import CallGate.Proofs.Session.Numbering
import CallGate.Proofs.Session.Recording
import CallGate.Proofs.Session.Replay
import CallGate.Proofs.Session.Report
import CallGate.Proofs.Session.Requests
import CallGate.Proofs.Session.Runs
import CallGate.Proofs.Session.Scope
import CallGate.Proofs.Session.Secrecy
import CallGate.Proofs.Session.Standing
import CallGate.Proofs.Session.Takings
import CallGate.Proofs.Session.Trail
import CallGate.Proofs.Session.Writes
import CallGate.Proofs.Settings.Blocks
import CallGate.Proofs.Settings.Listed
import CallGate.Proofs.Settings.Paths
import CallGate.Proofs.Text.ByteOrder
import CallGate.Proofs.Text.Lines
import CallGate.Proofs.Text.Marks
import CallGate.Proofs.Text.Pieces
import CallGate.Proofs.Workflow.Compile
import CallGate.Proofs.Workflow.Consistency
import CallGate.Proofs.Workflow.Cycle
import CallGate.Proofs.Workflow.Expectation
import CallGate.Proofs.Workflow.FailureCycles
import CallGate.Proofs.Workflow.Layout
import CallGate.Proofs.Workflow.Resolution
import CallGate.Proofs.Workflow.Restored
import CallGate.Proofs.Workflow.Scanning
import CallGate.Proofs.Workflow.Segments
import CallGate.Proofs.Workflow.Template
import CallGate.Proofs.Workflow.Trail
import CallGate.Proofs.Workflow.WellFormed
import CallGate.Redaction.Pattern
import CallGate.Redaction.Personal
import CallGate.Redaction.Value
import CallGate.Session.Audit
import CallGate.Session.Basic
import CallGate.Session.Config
import CallGate.Session.Outlets
import CallGate.Session.Sink
import CallGate.Session.State
import CallGate.Settings.Basic
import CallGate.Settings.Check
import CallGate.Settings.Environment
import CallGate.Settings.Error
import CallGate.Settings.Example
import CallGate.Settings.Load
import CallGate.Settings.Outlets
import CallGate.Text.Blank
import CallGate.Text.Numeral
import CallGate.Text.Split
import CallGate.Text.Word
import CallGate.Toml.Number
import CallGate.Toml.Reader
import CallGate.Toml.Table
import CallGate.Toml.Text
import CallGate.Workflow.Basic
import CallGate.Workflow.Compile
import CallGate.Workflow.Cycle
import CallGate.Workflow.Document
import CallGate.Workflow.Expectation
import CallGate.Workflow.FailurePolicy
import CallGate.Workflow.Template
import CallGate.World

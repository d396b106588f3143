import WorkspaceGraph.Alias
import WorkspaceGraph.Api.Answer
import WorkspaceGraph.Api.Route
import WorkspaceGraph.Api.Target
import WorkspaceGraph.Client.Payload
import WorkspaceGraph.Client.Post
import WorkspaceGraph.Client.SnapshotFile
import WorkspaceGraph.CommandLine.Arguments
import WorkspaceGraph.CommandLine.IngestCommand
import WorkspaceGraph.CommandLine.Report
import WorkspaceGraph.CommandLine.ScanCommand
import WorkspaceGraph.Database.Address
import WorkspaceGraph.Database.Migration
import WorkspaceGraph.Digest
import WorkspaceGraph.FileTree
import WorkspaceGraph.Ingestion.Acquire
import WorkspaceGraph.Ingestion.Commit
import WorkspaceGraph.Ingestion.Decision
import WorkspaceGraph.Ingestion.Error
import WorkspaceGraph.Ingestion.Failure
import WorkspaceGraph.Ingestion.Service
import WorkspaceGraph.Instant
import WorkspaceGraph.Json.Display
import WorkspaceGraph.Json.Reader
import WorkspaceGraph.Json.Value
import WorkspaceGraph.Json.Writer
import WorkspaceGraph.Limits
import WorkspaceGraph.Log.Entry
import WorkspaceGraph.Log.Record
import WorkspaceGraph.Log.Template
import WorkspaceGraph.Main
import WorkspaceGraph.Number.Amount
import WorkspaceGraph.Number.Binary64
import WorkspaceGraph.Number.Shortest
import WorkspaceGraph.Number.Whole
import WorkspaceGraph.Order
import WorkspaceGraph.Path
import WorkspaceGraph.Proofs.Ingestion.Actions
import WorkspaceGraph.Proofs.Ingestion.Outcomes
import WorkspaceGraph.Proofs.Ingestion.Replay
import WorkspaceGraph.Proofs.Ingestion.Rows
import WorkspaceGraph.Proofs.Interleaving.History
import WorkspaceGraph.Proofs.Interleaving.Linkage
import WorkspaceGraph.Proofs.Interleaving.Move
import WorkspaceGraph.Proofs.Interleaving.Ownership
import WorkspaceGraph.Proofs.Interleaving.Replay
import WorkspaceGraph.Proofs.Interleaving.System
import WorkspaceGraph.Proofs.Interleaving.Uninterrupted
import WorkspaceGraph.Proofs.Store.Contract
import WorkspaceGraph.Proofs.Store.Operations
import WorkspaceGraph.Proofs.Store.Tables
import WorkspaceGraph.Resolution
import WorkspaceGraph.Scan
import WorkspaceGraph.Schema.Checked
import WorkspaceGraph.Settings
import WorkspaceGraph.Snapshot.Basic
import WorkspaceGraph.Snapshot.Canonical
import WorkspaceGraph.Snapshot.Wire
import WorkspaceGraph.Source.Component
import WorkspaceGraph.Source.File
import WorkspaceGraph.Source.Import
import WorkspaceGraph.Source.Pattern
import WorkspaceGraph.Store.Basic
import WorkspaceGraph.Store.Draft
import WorkspaceGraph.Store.Error
import WorkspaceGraph.Store.Naming
import WorkspaceGraph.Store.Report
import WorkspaceGraph.Store.RowId
import WorkspaceGraph.Store.Transaction
import WorkspaceGraph.Submission.Basic
import WorkspaceGraph.Submission.Request
import WorkspaceGraph.Text.Blank
import WorkspaceGraph.Text.Case
import WorkspaceGraph.Text.Digit
import WorkspaceGraph.Text.Encoding
import WorkspaceGraph.Text.Letter
import WorkspaceGraph.Text.Newline
import WorkspaceGraph.Text.Printable
import WorkspaceGraph.Text.Quoted
import WorkspaceGraph.Text.Utf8
import WorkspaceGraph.Workspace.Error
import WorkspaceGraph.Workspace.Project
import WorkspaceGraph.Workspace.Registry
import WorkspaceGraph.Proofs.Ingestion.Conduct
import WorkspaceGraph.Proofs.Api.Changes
import WorkspaceGraph.Proofs.Path.Components
import WorkspaceGraph.Proofs.Path.Rooted
import WorkspaceGraph.Proofs.Path.Within
import WorkspaceGraph.Proofs.FileTree
import WorkspaceGraph.Proofs.Source.Walk
import WorkspaceGraph.Proofs.Order
import WorkspaceGraph.Proofs.Snapshot.Edges
import WorkspaceGraph.Proofs.Json.Names
import WorkspaceGraph.Proofs.Workspace.Ownership
import WorkspaceGraph.Proofs.Workspace.Survey
import WorkspaceGraph.Proofs.Scan.Graph
import WorkspaceGraph.Proofs.Scan.Views
import WorkspaceGraph.Proofs.Scan.Attribution
import WorkspaceGraph.Proofs.Snapshot.Canonical
import WorkspaceGraph.Proofs.Snapshot.Content
import WorkspaceGraph.Proofs.Submission.Preparation
import WorkspaceGraph.Proofs.Scan.Canonical
import WorkspaceGraph.Proofs.Text.Utf8
import WorkspaceGraph.Proofs.Json.Texts
import WorkspaceGraph.Proofs.Json.Numbers
import WorkspaceGraph.Proofs.Json.RoundTrip
import WorkspaceGraph.Proofs.Json.Lines
import WorkspaceGraph.Proofs.Json.Stable
import WorkspaceGraph.Proofs.Schema.Fields
import WorkspaceGraph.Proofs.Snapshot.Wire
import WorkspaceGraph.Proofs.Submission.Fingerprint
import WorkspaceGraph.Proofs.FileTree.Writing
import WorkspaceGraph.Proofs.Client.Transfer
import WorkspaceGraph.Proofs.Ingestion.Calm
import WorkspaceGraph.Proofs.Interleaving.Lifecycle
import WorkspaceGraph.Proofs.Api.Submissions
import WorkspaceGraph.Proofs.Ingestion.Ledger
import WorkspaceGraph.Proofs.Interleaving.Abreast
import WorkspaceGraph.Proofs.Interleaving.Serial
import WorkspaceGraph.Proofs.Client.Exchange
import WorkspaceGraph.Proofs.Client.Once
import WorkspaceGraph.Proofs.Text.Blank
import WorkspaceGraph.Proofs.Snapshot.Rearranged
import WorkspaceGraph.Proofs.Scan.Pool
import WorkspaceGraph.Proofs.Submission.Variants
import WorkspaceGraph.Proofs.Database.Rows
import WorkspaceGraph.Proofs.Interleaving.Keeping
import WorkspaceGraph.Proofs.Database.Constraints
import WorkspaceGraph.Proofs.Ingestion.Constraints
import WorkspaceGraph.Proofs.Interleaving.Constraints
import WorkspaceGraph.Proofs.Path.Below
import WorkspaceGraph.Proofs.Scan.Confinement
import WorkspaceGraph.Proofs.Interleaving.Race
import WorkspaceGraph.Proofs.Interleaving.Trials
import WorkspaceGraph.Proofs.Interleaving.Finalization
import WorkspaceGraph.Proofs.Interleaving.Latest
import WorkspaceGraph.Proofs.Path.Around
import WorkspaceGraph.Proofs.Path.Walk
import WorkspaceGraph.Proofs.Workspace.Innermost
import WorkspaceGraph.Proofs.Workspace.Spelling
import WorkspaceGraph.Proofs.Workspace.Aliases
import WorkspaceGraph.Proofs.FileTree.Related
import WorkspaceGraph.Proofs.Workspace.Remapped
import WorkspaceGraph.Proofs.Workspace.Contested
import WorkspaceGraph.Proofs.Scan.Rekeyed
import WorkspaceGraph.Proofs.Source.Pattern
import WorkspaceGraph.Proofs.Source.Listing
import WorkspaceGraph.Proofs.Source.Component
import WorkspaceGraph.Proofs.Source.Capture
import WorkspaceGraph.Proofs.Source.Statement
import WorkspaceGraph.Proofs.Path.Parent
import WorkspaceGraph.Proofs.Workspace.Referenced
import WorkspaceGraph.Proofs.Digest
import WorkspaceGraph.Proofs.Client.Retrying
import WorkspaceGraph.Proofs.Number.Binary64
import WorkspaceGraph.Proofs.Client.Pausing
import WorkspaceGraph.Proofs.Path.Straight
import WorkspaceGraph.Proofs.Workspace.Inferred
import WorkspaceGraph.Proofs.Text.Trimmed
import WorkspaceGraph.Proofs.Client.Derived
import WorkspaceGraph.Proofs.Ingestion.Code
import WorkspaceGraph.Proofs.Path.Tidy
import WorkspaceGraph.Proofs.Path.Resolved

import CodeAtlas.Clock
import CodeAtlas.Command.Line
import CodeAtlas.Command.Program
import CodeAtlas.Command.Run
import CodeAtlas.Config
import CodeAtlas.Error
import CodeAtlas.Explore
import CodeAtlas.Fact
import CodeAtlas.FilePath
import CodeAtlas.Files.Glob
import CodeAtlas.Files.Ignore
import CodeAtlas.Files.Tree
import CodeAtlas.Fingerprint
import CodeAtlas.Grammar.Automaton
import CodeAtlas.Grammar.CharSet
import CodeAtlas.Grammar.Item
import CodeAtlas.Grammar.Lexicon
import CodeAtlas.Grammar.Production
import CodeAtlas.Grammar.Rule
import CodeAtlas.Grammar.Table
import CodeAtlas.Graph.Kind
import CodeAtlas.Graph.Node
import CodeAtlas.Graph.Record
import CodeAtlas.Graph.Span
import CodeAtlas.Indexing.FileChange
import CodeAtlas.Indexing.Indexer
import CodeAtlas.Json.Basic
import CodeAtlas.Json.Reader
import CodeAtlas.Main
import CodeAtlas.ModulePath
import CodeAtlas.Parsing.Engine
import CodeAtlas.Parsing.Source
import CodeAtlas.Parsing.Stack
import CodeAtlas.Parsing.Subtree
import CodeAtlas.Parsing.Tree
import CodeAtlas.Proofs.Explore.Calls
import CodeAtlas.Proofs.Explore.Frontier
import CodeAtlas.Proofs.Explore.Imports
import CodeAtlas.Proofs.Explore.Order
import CodeAtlas.Proofs.Explore.Reach
import CodeAtlas.Proofs.Facts.Order
import CodeAtlas.Proofs.Facts.Told
import CodeAtlas.Proofs.Files.Steps
import CodeAtlas.Proofs.Graph.Ids
import CodeAtlas.Proofs.Indexing.Again
import CodeAtlas.Proofs.Indexing.Course
import CodeAtlas.Proofs.Indexing.Decision
import CodeAtlas.Proofs.Indexing.Due
import CodeAtlas.Proofs.Indexing.Failure
import CodeAtlas.Proofs.Indexing.Known
import CodeAtlas.Proofs.Indexing.Once
import CodeAtlas.Proofs.Indexing.Paths
import CodeAtlas.Proofs.Indexing.Provenance
import CodeAtlas.Proofs.Indexing.Reached
import CodeAtlas.Proofs.Indexing.Symbols
import CodeAtlas.Proofs.Indexing.Termination
import CodeAtlas.Proofs.Indexing.Work
import CodeAtlas.Proofs.Modules.Relative
import CodeAtlas.Proofs.Parsing.Places
import CodeAtlas.Proofs.Parsing.Preorder
import CodeAtlas.Proofs.Python.Scopes
import CodeAtlas.Proofs.Python.Walk
import CodeAtlas.Proofs.Resolve.Anchors
import CodeAtlas.Proofs.Resolve.Binding
import CodeAtlas.Proofs.Resolve.Containment
import CodeAtlas.Proofs.Resolve.Contribution
import CodeAtlas.Proofs.Resolve.Identity
import CodeAtlas.Proofs.Resolve.Indexes
import CodeAtlas.Proofs.Resolve.Outside
import CodeAtlas.Proofs.Resolve.Qualify
import CodeAtlas.Proofs.Resolve.Table
import CodeAtlas.Proofs.Resolve.Target
import CodeAtlas.Proofs.Resolve.Total
import CodeAtlas.Proofs.Resolve.Twice
import CodeAtlas.Proofs.Resolve.WellFormed
import CodeAtlas.Proofs.Rust.Arguments
import CodeAtlas.Proofs.Rust.Paths
import CodeAtlas.Proofs.Rust.Uses
import CodeAtlas.Proofs.Rust.Walk
import CodeAtlas.Proofs.Scheduling.Attempts
import CodeAtlas.Proofs.Scheduling.Fingerprints
import CodeAtlas.Proofs.Scheduling.Notifications
import CodeAtlas.Proofs.Scheduling.Pool
import CodeAtlas.Proofs.Scheduling.Reconciliation
import CodeAtlas.Proofs.Scheduling.Roots
import CodeAtlas.Proofs.Scheduling.Status
import CodeAtlas.Proofs.Scheduling.Together
import CodeAtlas.Proofs.Scheduling.Turns
import CodeAtlas.Proofs.Scheduling.Worker
import CodeAtlas.Proofs.Service.Alone
import CodeAtlas.Proofs.Service.Answer
import CodeAtlas.Proofs.Service.Errand
import CodeAtlas.Proofs.Service.Jobs
import CodeAtlas.Proofs.Service.Office
import CodeAtlas.Proofs.Service.Task
import CodeAtlas.Proofs.Store.Contents
import CodeAtlas.Proofs.Store.Rows
import CodeAtlas.Proofs.Store.Search
import CodeAtlas.Proofs.Store.Work
import CodeAtlas.Proofs.Text.Cuts
import CodeAtlas.Proofs.Text.Segments
import CodeAtlas.Proofs.Upsert.Account
import CodeAtlas.Proofs.Upsert.Calls
import CodeAtlas.Proofs.Upsert.Change
import CodeAtlas.Proofs.Upsert.Claims
import CodeAtlas.Proofs.Upsert.Handover
import CodeAtlas.Proofs.Upsert.Idle
import CodeAtlas.Proofs.Upsert.Links
import CodeAtlas.Proofs.Upsert.Loop
import CodeAtlas.Proofs.Upsert.Merge
import CodeAtlas.Proofs.Upsert.Names
import CodeAtlas.Proofs.Upsert.Ownership
import CodeAtlas.Proofs.Upsert.Parts
import CodeAtlas.Proofs.Upsert.Rebuild
import CodeAtlas.Proofs.Upsert.Replacement
import CodeAtlas.Proofs.Upsert.Restore
import CodeAtlas.Proofs.Upsert.Retract
import CodeAtlas.Proofs.Upsert.Settled
import CodeAtlas.Proofs.Upsert.Sweep
import CodeAtlas.Proofs.Upsert.Target
import CodeAtlas.Proofs.Upsert.Total
import CodeAtlas.Proofs.Upsert.Waiting
import CodeAtlas.Python.Facts
import CodeAtlas.Python.Grammar
import CodeAtlas.Python.Layout
import CodeAtlas.Resolve.FileScope
import CodeAtlas.Resolve.Reference
import CodeAtlas.Resolve.Resolution
import CodeAtlas.Resolve.Symbol
import CodeAtlas.Retry
import CodeAtlas.Rust.Facts
import CodeAtlas.Rust.Grammar
import CodeAtlas.Rust.Path
import CodeAtlas.Rust.Scanner
import CodeAtlas.Scheduling.Queue
import CodeAtlas.Scheduling.Scheduler
import CodeAtlas.Service.Answer
import CodeAtlas.Service.Job
import CodeAtlas.Service.Report
import CodeAtlas.Service.Request
import CodeAtlas.SourceFile
import CodeAtlas.Store.Archive
import CodeAtlas.Store.Basic
import CodeAtlas.Store.Query
import CodeAtlas.Store.Rows
import CodeAtlas.Store.Search
import CodeAtlas.Store.Transaction
import CodeAtlas.Text.Case
import CodeAtlas.Text.Identifier
import CodeAtlas.Text.Quoted
import CodeAtlas.Text.Segments
import CodeAtlas.Text.Words
import CodeAtlas.Toml.Basic
import CodeAtlas.Toml.Reader
import CodeAtlas.Toml.Writer
import CodeAtlas.Tracker
import CodeAtlas.Upsert
import CodeAtlas.Watch

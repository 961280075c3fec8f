import RecordStore.CommandLine.Grammar
import RecordStore.CommandLine.Invocation
import RecordStore.CommandLine.Run
import RecordStore.Config.Basic
import RecordStore.Config.Load
import RecordStore.Document.Order
import RecordStore.Document.Query
import RecordStore.Document.Store
import RecordStore.Document.Tree
import RecordStore.Json.Basic
import RecordStore.Json.Loose
import RecordStore.Json.Printer
import RecordStore.Json.Reader
import RecordStore.Main
import RecordStore.Number.Binary64
import RecordStore.Number.Bounds
import RecordStore.Number.Decimal
import RecordStore.Number.Numeral
import RecordStore.Patch.Basic
import RecordStore.Patch.Update
import RecordStore.Path.Basic
import RecordStore.Path.Lookup
import RecordStore.Path.Parser
import RecordStore.Path.Write
import RecordStore.Pattern.Basic
import RecordStore.Pattern.CharSet
import RecordStore.Pattern.Parser
import RecordStore.Proofs.Answers
import RecordStore.Proofs.Document.Batch
import RecordStore.Proofs.Document.Creating
import RecordStore.Proofs.Document.Matching
import RecordStore.Proofs.Document.Maximum
import RecordStore.Proofs.Document.Operations
import RecordStore.Proofs.Document.Preparing
import RecordStore.Proofs.Document.Readable
import RecordStore.Proofs.Document.Relations
import RecordStore.Proofs.Document.Saving
import RecordStore.Proofs.Document.Sessions
import RecordStore.Proofs.Document.Sorting
import RecordStore.Proofs.Document.Tree
import RecordStore.Proofs.Json.Members
import RecordStore.Proofs.Json.Overlay
import RecordStore.Proofs.Json.RoundTrip
import RecordStore.Proofs.Json.Tokens
import RecordStore.Proofs.Number.Exact
import RecordStore.Proofs.Patch.Accumulating
import RecordStore.Proofs.Patch.Effect
import RecordStore.Proofs.Patch.Independence
import RecordStore.Proofs.Patch.Lists
import RecordStore.Proofs.Patch.Protection
import RecordStore.Proofs.Patch.Sequencing
import RecordStore.Proofs.Path.Grammar
import RecordStore.Proofs.Path.Nesting
import RecordStore.Proofs.Path.Overwrite
import RecordStore.Proofs.Path.Place
import RecordStore.Proofs.Path.ReadWrite
import RecordStore.Proofs.Path.Reading
import RecordStore.Proofs.Path.Removal
import RecordStore.Proofs.Path.Spelling
import RecordStore.Proofs.Path.Walk
import RecordStore.Proofs.Path.WriteLaw
import RecordStore.Proofs.Query.Entries
import RecordStore.Proofs.Query.FieldNames
import RecordStore.Proofs.Relational.Binding
import RecordStore.Proofs.Relational.Codec
import RecordStore.Proofs.Relational.Columns
import RecordStore.Proofs.Relational.Creating
import RecordStore.Proofs.Relational.Keys
import RecordStore.Proofs.Relational.Matching
import RecordStore.Proofs.Relational.Naming
import RecordStore.Proofs.Relational.Noninterference
import RecordStore.Proofs.Relational.Operations
import RecordStore.Proofs.Relational.Quoting
import RecordStore.Proofs.Relational.Saving
import RecordStore.Proofs.Relational.Tables
import RecordStore.Proofs.Relational.Truth
import RecordStore.Proofs.Relational.Updating
import RecordStore.Proofs.Schema.Addressing
import RecordStore.Proofs.Schema.Building
import RecordStore.Proofs.Schema.Names
import RecordStore.Proofs.Schema.Shape
import RecordStore.Proofs.Store.Action
import RecordStore.Proofs.Store.Agreement
import RecordStore.Proofs.Store.Creating
import RecordStore.Proofs.Store.Decidable
import RecordStore.Proofs.Store.FailedSave
import RecordStore.Proofs.Store.Inequality
import RecordStore.Proofs.Store.Insertion
import RecordStore.Proofs.Store.IntegerFilters
import RecordStore.Proofs.Store.Populating
import RecordStore.Proofs.Store.Preparing
import RecordStore.Proofs.Store.Reachable
import RecordStore.Proofs.Store.Reading
import RecordStore.Proofs.Store.Saving
import RecordStore.Proofs.Store.StoredFields
import RecordStore.Proofs.Store.TextFilters
import RecordStore.Proofs.Store.UnknownModels
import RecordStore.Query.Basic
import RecordStore.Query.Fault
import RecordStore.Query.Planning
import RecordStore.Relational.Column
import RecordStore.Relational.Database
import RecordStore.Relational.Evaluation
import RecordStore.Relational.Filter
import RecordStore.Relational.JulianDay
import RecordStore.Relational.Statement
import RecordStore.Relational.Store
import RecordStore.Relational.Value
import RecordStore.Schema.Basic
import RecordStore.Schema.Descriptor
import RecordStore.Schema.ModelFile
import RecordStore.Schema.Registry
import RecordStore.Schema.Resolution
import RecordStore.Storage.Disk
import RecordStore.Storage.Snapshot
import RecordStore.Store.Basic
import RecordStore.Store.Bootstrap
import RecordStore.Store.Engine
import RecordStore.Store.Error
import RecordStore.Store.Fixture
import RecordStore.Store.Relations
import RecordStore.Store.Shaping
import RecordStore.Text.Blank
import RecordStore.Text.Letters
import RecordStore.Text.Utf8
import RecordStore.Time.Instant
import RecordStore.Toml.Reader
import RecordStore.Toml.Scalar
import RecordStore.Toml.Table
import RecordStore.Toml.Text
import RecordStore.Proofs.Patch.Replay
import RecordStore.Proofs.Number.Rounding
import RecordStore.Proofs.Patch.Relating
import RecordStore.Proofs.Patch.Counting
import RecordStore.Proofs.Patch.NestedExclusion
import RecordStore.Proofs.Number.Order
import RecordStore.Proofs.Number.Integral
import RecordStore.Proofs.Document.Integers
import RecordStore.Proofs.Json.Alike
import RecordStore.Proofs.Document.Equality
import RecordStore.Proofs.Document.Congruence
import RecordStore.Proofs.Document.Notation
import RecordStore.Proofs.Document.FilterForm
import RecordStore.Proofs.Json.LooseText
import RecordStore.Proofs.Store.KeyOrder
import RecordStore.Proofs.Document.OwningKeys
import RecordStore.Proofs.Relational.OwningKeys
import RecordStore.Proofs.Store.OwningKeys
import RecordStore.Proofs.Store.CreatedFields
import RecordStore.Proofs.Store.Visibility
import RecordStore.Proofs.Store.Addressed

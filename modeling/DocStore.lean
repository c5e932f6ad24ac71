import DocStore.Calendar
import DocStore.Dispatch.Backend
import DocStore.Dispatch.Config
import DocStore.Dispatch.Dispatcher
import DocStore.Dispatch.Registry
import DocStore.Error
import DocStore.Fields
import DocStore.Json.Basic
import DocStore.Json.Distinct
import DocStore.Json.Nesting
import DocStore.Json.Parser
import DocStore.Json.Printer
import DocStore.Json.Record
import DocStore.Json.Token
import DocStore.Medium.Basic
import DocStore.Medium.Disk
import DocStore.Medium.Path
import DocStore.Number.Basic
import DocStore.Number.Decimal128
import DocStore.Number.DecimalReading
import DocStore.Number.Double
import DocStore.Number.Numeral
import DocStore.Number.Reading
import DocStore.Number.Shortest
import DocStore.Number.Text
import DocStore.Predicate.Basic
import DocStore.Predicate.Parser
import DocStore.Predicate.Patterns
import DocStore.Predicate.Printer
import DocStore.Proofs.Dispatch.Actions
import DocStore.Proofs.Dispatch.Closing
import DocStore.Proofs.Dispatch.Connecting
import DocStore.Proofs.Dispatch.Isolation
import DocStore.Proofs.Dispatch.Ownership
import DocStore.Proofs.Dispatch.Reconnecting
import DocStore.Proofs.Dispatch.Startup
import DocStore.Proofs.Fields
import DocStore.Proofs.Join.Convention
import DocStore.Proofs.Join.Locality
import DocStore.Proofs.Join.Nesting
import DocStore.Proofs.Join.Order
import DocStore.Proofs.Join.Rows
import DocStore.Proofs.Json.Reading
import DocStore.Proofs.Json.Scanning
import DocStore.Proofs.Json.Strings
import DocStore.Proofs.Medium.Faults
import DocStore.Proofs.Number.Comparison
import DocStore.Proofs.Number.DecimalText
import DocStore.Proofs.Number.DoubleText
import DocStore.Proofs.Number.Exact
import DocStore.Proofs.Number.WholePart
import DocStore.Proofs.Number.Written
import DocStore.Proofs.Outcome
import DocStore.Proofs.Predicate.Canonical
import DocStore.Proofs.Predicate.Clause
import DocStore.Proofs.Predicate.Evaluation
import DocStore.Proofs.Predicate.Reading
import DocStore.Proofs.Query.Canonical
import DocStore.Proofs.Query.EqualValues
import DocStore.Proofs.Query.IncludeOptions
import DocStore.Proofs.Query.Includes
import DocStore.Proofs.Query.Paging
import DocStore.Proofs.Query.Ranges
import DocStore.Proofs.Query.Selection
import DocStore.Proofs.Query.Sorting
import DocStore.Proofs.Session
import DocStore.Proofs.Snapshot.Collections
import DocStore.Proofs.Snapshot.Durable
import DocStore.Proofs.Snapshot.PlainData
import DocStore.Proofs.Snapshot.Values
import DocStore.Proofs.Store.Atomicity
import DocStore.Proofs.Store.Batches
import DocStore.Proofs.Store.Cascade
import DocStore.Proofs.Store.Children
import DocStore.Proofs.Store.Commutation
import DocStore.Proofs.Store.Confinement
import DocStore.Proofs.Store.Creation
import DocStore.Proofs.Store.Durability
import DocStore.Proofs.Store.Identity
import DocStore.Proofs.Store.Inheritance
import DocStore.Proofs.Store.Lookup
import DocStore.Proofs.Store.Mirror
import DocStore.Proofs.Store.Modification
import DocStore.Proofs.Store.Presence
import DocStore.Proofs.Store.Repetition
import DocStore.Proofs.Store.Request
import DocStore.Proofs.Store.Restorable
import DocStore.Proofs.Store.Saving
import DocStore.Proofs.Store.Singles
import DocStore.Proofs.Store.Termination
import DocStore.Proofs.Store.Transition
import DocStore.Proofs.Text.Like
import DocStore.Proofs.Value.Equality
import DocStore.Proofs.Value.Equivalence
import DocStore.Proofs.Value.Induction
import DocStore.Proofs.Value.NonNull
import DocStore.Proofs.Value.SortOrder
import DocStore.Query.Basic
import DocStore.Query.Builder
import DocStore.Query.Includes
import DocStore.Query.Sorting
import DocStore.Query.Update
import DocStore.Session
import DocStore.Snapshot.Basic
import DocStore.Snapshot.Decoding
import DocStore.Snapshot.Encoding
import DocStore.Snapshot.File
import DocStore.Store.Basic
import DocStore.Store.Cascade
import DocStore.Store.Change
import DocStore.Store.Collections
import DocStore.Store.Creation
import DocStore.Store.IdSupply
import DocStore.Store.Joins
import DocStore.Store.Search
import DocStore.Text.Base64
import DocStore.Text.Hex
import DocStore.Text.Like
import DocStore.Text.Uuid
import DocStore.Value.Basic
import DocStore.Value.Conversion
import DocStore.Value.Display
import DocStore.Value.Equality
import DocStore.Value.Order
import DocStore.Value.Tagged

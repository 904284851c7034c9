import DocumentStore.Deployment
import DocumentStore.Interchange.Documents
import DocumentStore.Interchange.Histories
import DocumentStore.Interchange.Predicates
import DocumentStore.Interchange.Settings
import DocumentStore.Proofs.Access.Agreement
import DocumentStore.Proofs.Access.Answers
import DocumentStore.Proofs.Access.Atomic
import DocumentStore.Proofs.Access.Backing
import DocumentStore.Proofs.Access.Chains
import DocumentStore.Proofs.Access.Chunks
import DocumentStore.Proofs.Access.Congruence
import DocumentStore.Proofs.Access.Contexts
import DocumentStore.Proofs.Access.Counts
import DocumentStore.Proofs.Access.Courses
import DocumentStore.Proofs.Access.Effects
import DocumentStore.Proofs.Access.Endings
import DocumentStore.Proofs.Access.Fetches
import DocumentStore.Proofs.Access.Interrupted
import DocumentStore.Proofs.Access.Ledgers
import DocumentStore.Proofs.Access.Lockstep
import DocumentStore.Proofs.Access.Paging
import DocumentStore.Proofs.Access.Policies
import DocumentStore.Proofs.Access.Refusals
import DocumentStore.Proofs.Access.Remaining
import DocumentStore.Proofs.Access.Reports
import DocumentStore.Proofs.Access.Scopes
import DocumentStore.Proofs.Access.Serving
import DocumentStore.Proofs.Access.Settled
import DocumentStore.Proofs.Access.Simulation
import DocumentStore.Proofs.Access.Slices
import DocumentStore.Proofs.Access.Streams
import DocumentStore.Proofs.Access.Traffic
import DocumentStore.Proofs.Access.Views
import DocumentStore.Proofs.Access.Wrote
import DocumentStore.Proofs.Aggregate.Entries
import DocumentStore.Proofs.Aggregate.Histories
import DocumentStore.Proofs.Aggregate.Isolation
import DocumentStore.Proofs.Aggregate.Latest
import DocumentStore.Proofs.Aggregate.Listing
import DocumentStore.Proofs.Aggregate.Retries
import DocumentStore.Proofs.Aggregate.RoundTrip
import DocumentStore.Proofs.Aggregate.Truncation
import DocumentStore.Proofs.Aggregate.Values
import DocumentStore.Proofs.Aggregate.Written
import DocumentStore.Proofs.Document.Crossing
import DocumentStore.Proofs.Document.Order
import DocumentStore.Proofs.Operation.Agreement
import DocumentStore.Proofs.Operation.Atomicity
import DocumentStore.Proofs.Operation.Basic
import DocumentStore.Proofs.Operation.Chains
import DocumentStore.Proofs.Operation.Closing
import DocumentStore.Proofs.Operation.Confined
import DocumentStore.Proofs.Operation.Counters
import DocumentStore.Proofs.Operation.Ledgers
import DocumentStore.Proofs.Operation.Moves
import DocumentStore.Proofs.Operation.Policies
import DocumentStore.Proofs.Operation.Refusals
import DocumentStore.Proofs.Operation.Registration
import DocumentStore.Proofs.Operation.Runs
import DocumentStore.Proofs.Operation.Scopes
import DocumentStore.Proofs.Operation.Simulation
import DocumentStore.Proofs.Operation.Tenants
import DocumentStore.Proofs.Predicate.Alternatives
import DocumentStore.Proofs.Predicate.Meaning
import DocumentStore.Proofs.Predicate.Normal
import DocumentStore.Proofs.Predicate.Outcomes
import DocumentStore.Proofs.Record.Batches
import DocumentStore.Proofs.Record.Ids
import DocumentStore.Proofs.Record.Lookups
import DocumentStore.Proofs.Record.Maps
import DocumentStore.Proofs.Record.Ordered
import DocumentStore.Proofs.Record.Returned
import DocumentStore.Proofs.Record.Rewritten
import DocumentStore.Proofs.Record.Scans
import DocumentStore.Proofs.Record.Stored
import DocumentStore.Proofs.Record.Written
import DocumentStore.Proofs.Sorted.Foremost
import DocumentStore.Proofs.Sorted.Stable
import DocumentStore.Proofs.Store.Agreement
import DocumentStore.Proofs.Store.Calls
import DocumentStore.Proofs.Store.Congruence
import DocumentStore.Proofs.Store.Interleaving
import DocumentStore.Proofs.Store.Last
import DocumentStore.Proofs.Store.Removal
import DocumentStore.Proofs.Store.Staging
import DocumentStore.Proofs.Store.Writes
import DocumentStore.Proofs.Tenancy.Coherence
import DocumentStore.Proofs.Tenancy.Known
import DocumentStore.Proofs.Tenancy.Listing
import DocumentStore.Proofs.Tenancy.Sharing
import DocumentStore.Proofs.Tenancy.Tenants
import DocumentStore.Proofs.Text.Cursors
import DocumentStore.Proofs.Text.ReadBack

import StepLedger.Interference
import StepLedger.Main
import StepLedger.Proofs.Document.Fields
import StepLedger.Proofs.Document.Apply
import StepLedger.Proofs.Collection.WellFormed
import StepLedger.Proofs.Collection.FirstMatch
import StepLedger.Proofs.Collection.History
import StepLedger.Proofs.Store.Served
import StepLedger.Proofs.Store.Reachable
import StepLedger.Proofs.Json.Words
import StepLedger.Proofs.Store.Outcome
import StepLedger.Proofs.World
import StepLedger.Proofs.Sequence.Counting
import StepLedger.Proofs.Sequence.Allocates
import StepLedger.Proofs.Sequence.Gapless
import StepLedger.Proofs.Sequence.Interchange
import StepLedger.Proofs.Calendar.Reading
import StepLedger.Proofs.Step.Codec
import StepLedger.Proofs.Step.Operation
import StepLedger.Proofs.Step.Stored
import StepLedger.Proofs.Step.ReadAfterWrite
import StepLedger.Proofs.Step.Returned
import StepLedger.Proofs.Step.Ledger
import StepLedger.Proofs.Step.Keeping
import StepLedger.Proofs.Step.Writes
import StepLedger.Proofs.Step.Entries
import StepLedger.Proofs.Step.NoLostUpdate
import StepLedger.Proofs.Json.Splitting
import StepLedger.Proofs.Json.Rebuilding
import StepLedger.Proofs.Snapshot
import StepLedger.Proofs.Disk
import StepLedger.Proofs.Archive.Names
import StepLedger.Proofs.Archive
import StepLedger.Proofs.Store.Mutated
import StepLedger.Proofs.Store.InStep
import StepLedger.Proofs.Store.Failure
import StepLedger.Proofs.Archive.Loading
import StepLedger.Proofs.Archive.Contents
import StepLedger.Proofs.Store.Catalogue
import StepLedger.Proofs.Store.Run
import StepLedger.Proofs.Document.Values
import StepLedger.Proofs.Document.Keys
import StepLedger.Proofs.Store.Reopening
import StepLedger.Proofs.Store.Durable
import StepLedger.Proofs.Store.Closing
import StepLedger.Proofs.Store.Idle
import StepLedger.Proofs.Store.Isolation
import StepLedger.Proofs.Document.Equal
import StepLedger.Proofs.Collection.Twin
import StepLedger.Proofs.Store.Twins
import StepLedger.Proofs.Step.Lasting
import StepLedger.Proofs.Step.Carrying
import StepLedger.Proofs.Repository.Opening
import StepLedger.Proofs.Repository.Chronicle
import StepLedger.Proofs.Sequence.Holding
import StepLedger.Proofs.Sequence.Failing
import StepLedger.Proofs.Sequence.Standing
import StepLedger.Proofs.Sequence.Seeding
import StepLedger.Proofs.Step.Refusal
import StepLedger.Proofs.Reliance
import StepLedger.Proofs.Step.Answering
import StepLedger.Proofs.Repository.Soundness
import StepLedger.Proofs.Step.Conflicts
import StepLedger.Proofs.Calendar.Stamp
import StepLedger.Proofs.Step.Lossless
import StepLedger.Proofs.Store.Serving
import StepLedger.Proofs.Sequence.Serving
import StepLedger.Proofs.Repository.FirstSave
import StepLedger.Proofs.Json.Indenting
import StepLedger.Proofs.CommandLine.Typed
import StepLedger.Proofs.CommandLine.Numbering
import StepLedger.Proofs.Repository.Custody
import StepLedger.Proofs.CommandLine.Showing
import StepLedger.Proofs.Document.Sums
import StepLedger.Proofs.Step.Verdict
import StepLedger.Proofs.Calendar.Order
import StepLedger.Proofs.Store.Kept
import StepLedger.Proofs.Step.Legible
import StepLedger.Proofs.Step.Latest
import StepLedger.Proofs.Store.Locality
import StepLedger.Proofs.Sequence.Returning
import StepLedger.Proofs.Repository.Batch
import StepLedger.Proofs.Collection.Agreement
import StepLedger.Proofs.Archive.Listing
import StepLedger.Proofs.Sequence.Spending
import StepLedger.Proofs.Repository.FailedSave
import StepLedger.Proofs.Sequence.Ending
import StepLedger.Proofs.Binary64.Shortest
import StepLedger.Proofs.Json.Numerals
import StepLedger.Proofs.Json.Distinct
import StepLedger.Proofs.Text.Split
import StepLedger.Proofs.Document.Creating
import StepLedger.Proofs.Collection.PrimaryKey
import StepLedger.Proofs.Collection.Upsert
import StepLedger.Proofs.Config.Url
import StepLedger.Proofs.Step.OfJob
import StepLedger.Proofs.Collection.Bulk
import StepLedger.Proofs.Collection.Revision

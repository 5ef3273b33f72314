import StepLedger.Document.Update
import StepLedger.Step.Execution

/-!
# Stored steps

A `StepRecord` is a step execution as it is stored: identified, complete, its exit description cut
to a number of characters (`StepRecord.ofExecution`). `StepRecord.toDocument` lays it out in a
document of nineteen fields and `StepRecord.ofDocument` reads it back. `StepRecord.update` writes
all fields but those that are fixed when the step is first saved.
-/

namespace StepLedger

/-- A step execution as it is stored. -/
structure StepRecord where
  id : Int64
  version : Int32
  name : String
  /-- The run of a job that the step is stored under. -/
  job : JobExecution
  startTime : Calendar.Instant
  endTime : Option Calendar.Instant
  status : BatchStatus
  exit : ExitStatus
  counters : Counters
  lastUpdated : Option Calendar.Instant
deriving DecidableEq, Repr

/-- The first characters of an exit description, as many as may be stored. -/
def cutDescription (description : String) (cap : Nat) : String :=
  String.ofList (description.toList.take cap)

namespace StepRecord

/-! ## From and to executions -/

/-- The record of an execution, with an exit description of at most `cap` characters. -/
def ofExecution (e : StepExecution) (cap : Nat) : Except StoreError StepRecord := do
  let required ← e.required
  match e.id, e.version with
  | some id, some version =>
    return {
      id
      version
      name := required.name
      job := e.job
      startTime := required.startTime
      endTime := e.endTime
      status := required.status
      exit := e.exit.withDescription (cutDescription e.exit.description cap)
      counters := e.counters
      lastUpdated := e.lastUpdated }
  | _, _ => throw (.invalidArgument .unidentified)

/-- The execution of a record, under the run of a job that the caller names. -/
def toExecution (r : StepRecord) (job : JobExecution) : StepExecution where
  id := r.id
  version := r.version
  name := r.name
  job := job
  startTime := r.startTime
  endTime := r.endTime
  status := r.status
  exit := r.exit
  counters := r.counters
  lastUpdated := r.lastUpdated

/-! ## Layout -/

/-- The field of the version. -/
def versionField : String := "version"

/-- The field of the name. -/
def nameField : String := "name"

/-- The field of the run of a job. -/
def parentField : String := "parentExecutionId"

/-- The field of the job instance. -/
def parentInstanceField : String := "parentInstanceId"

/-- A time that may be absent. -/
def ofTime? : Option Calendar.Instant → Json
  | some time => .string time.text
  | none => .null

/-- The fields of a record. -/
def layout (r : StepRecord) : List (String × Json) :=
  [(idField, .ofInt64 r.id),
    (versionField, .ofInt32 r.version),
    (nameField, .string r.name),
    (parentField, .ofInt64 r.job.id),
    (parentInstanceField, .ofInt64 r.job.jobInstance),
    ("startTime", .string r.startTime.text),
    ("endTime", ofTime? r.endTime),
    ("status", .string r.status.name),
    ("commitCount", .ofUInt32 r.counters.commit),
    ("readCount", .ofUInt32 r.counters.read),
    ("filterCount", .ofUInt32 r.counters.filter),
    ("writeCount", .ofUInt32 r.counters.write),
    ("exitCode", .string r.exit.code),
    ("exitDescription", .string r.exit.description),
    ("readSkipCount", .ofUInt32 r.counters.readSkip),
    ("writeSkipCount", .ofUInt32 r.counters.writeSkip),
    ("processSkipCount", .ofUInt32 r.counters.processSkip),
    ("rollbackCount", .ofUInt32 r.counters.rollback),
    ("lastUpdated", ofTime? r.lastUpdated)]

/-- The document of a record. -/
def toDocument (r : StepRecord) : Document := Document.ofList r.layout

open DecodeError (require) in
/-- The record in a document. The fields are looked at by ascending name and the first bad one is
reported; after that the first missing one in the order of the layout. -/
def ofDocument (d : Document) : Except DecodeError StepRecord := do
  let commit ← d.field? "commitCount" Json.Value.toUInt32
  let endTime ← d.field? "endTime" (Json.Value.toOption Json.Value.toInstant)
  let exitCode ← d.field? "exitCode" Json.Value.toText
  let exitDescription ← d.field? "exitDescription" Json.Value.toText
  let filter ← d.field? "filterCount" Json.Value.toUInt32
  let id ← d.field? idField Json.Value.toInt64
  let lastUpdated ← d.field? "lastUpdated" (Json.Value.toOption Json.Value.toInstant)
  let name ← d.field? nameField Json.Value.toText
  let parent ← d.field? parentField Json.Value.toInt64
  let parentInstance ← d.field? parentInstanceField Json.Value.toInt64
  let processSkip ← d.field? "processSkipCount" Json.Value.toUInt32
  let read ← d.field? "readCount" Json.Value.toUInt32
  let readSkip ← d.field? "readSkipCount" Json.Value.toUInt32
  let rollback ← d.field? "rollbackCount" Json.Value.toUInt32
  let startTime ← d.field? "startTime" Json.Value.toInstant
  let status ← d.field? "status" BatchStatus.decode
  let version ← d.field? versionField Json.Value.toInt32
  let write ← d.field? "writeCount" Json.Value.toUInt32
  let writeSkip ← d.field? "writeSkipCount" Json.Value.toUInt32
  let id ← require idField id
  let version ← require versionField version
  let name ← require nameField name
  let job := ⟨← require parentField parent, ← require parentInstanceField parentInstance⟩
  let startTime ← require "startTime" startTime
  let status ← require "status" status
  let commit ← require "commitCount" commit
  let read ← require "readCount" read
  let filter ← require "filterCount" filter
  let write ← require "writeCount" write
  let exit := ⟨← require "exitCode" exitCode, ← require "exitDescription" exitDescription⟩
  let readSkip ← require "readSkipCount" readSkip
  let writeSkip ← require "writeSkipCount" writeSkip
  let processSkip ← require "processSkipCount" processSkip
  let rollback ← require "rollbackCount" rollback
  return {
    id, version, name, job, startTime, status, exit
    endTime := endTime.join
    counters := { read, write, filter, commit, rollback, readSkip, writeSkip, processSkip }
    lastUpdated := lastUpdated.join }

/-! ## Updates -/

/-- The fields that an update writes; the others are fixed when the step is first saved. -/
def mutableFields : List String :=
  [versionField, "startTime", "endTime", "status", "commitCount", "readCount", "filterCount",
    "writeCount", "exitCode", "exitDescription", "readSkipCount", "writeSkipCount",
    "processSkipCount", "rollbackCount", "lastUpdated"]

/-- The update that writes the record over an earlier version of it. -/
def update (r : StepRecord) : Update :=
  { Update.empty with set := r.toDocument.restrict mutableFields }

end StepRecord

end StepLedger

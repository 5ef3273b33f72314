import StepLedger.Sequence.Allocation
import StepLedger.Step.Record

/-!
# The catalogue of steps

A `StepCatalogue` stores step executions in one collection under ids from a sequence. A step is
saved at version 0; an update names the version that it changes, is refused if another is stored,
and raises the version by one. `save` and `update` answer with what the caller passed, under the id
and the version that are stored then.

Every operation is a program of requests, and each request is atomic on its own.
-/

namespace StepLedger

/-- Where step executions are stored and how. -/
structure StepCatalogue where
  collection : String
  allocator : Sequence.Allocator
  /-- The sequence of the ids. -/
  sequence : String
  /-- How many characters of an exit description are stored. -/
  cap : Nat
deriving DecidableEq, Repr

namespace StepCatalogue

/-! ## Saving -/

/-- Refuse a record that may not be stored, or that has been stored already. -/
def checkNew (e : StepExecution) : Except StoreError Unit := do
  e.validate
  if e.id.isSome then throw (.invalidArgument .hasId)
  if e.version.isSome then throw (.invalidArgument .hasVersion)

/-- A new record under the next id at version 0, and its document. -/
def identify (c : StepCatalogue) (e : StepExecution) : Program (StepExecution × Document) := do
  Program.ofExcept (checkNew e)
  let id ← c.allocator.next c.sequence
  let saved := e.identified id 0
  let record ← Program.ofExcept (StepRecord.ofExecution saved c.cap)
  return (saved, record.toDocument)

/-- Store a new step execution. -/
def save (c : StepCatalogue) (e : StepExecution) : Program StepExecution := do
  let (saved, document) ← c.identify e
  let _ ← Program.request (.insertOne c.collection document)
  return saved

/-- New records under the next ids, in order, and their documents. -/
def identifyAll (c : StepCatalogue) :
    List StepExecution → Program (List StepExecution × List Document)
  | [] => return ([], [])
  | e :: es => do
    let (saved, document) ← c.identify e
    let (restSaved, documents) ← c.identifyAll es
    return (saved :: restSaved, document :: documents)

/-- Store new step executions by one request. -/
def saveAll (c : StepCatalogue) : Option (List StepExecution) → Program (List StepExecution)
  | none => .fail (.invalidArgument .noBatch)
  | some [] => return []
  | some es => do
    let (saved, documents) ← c.identifyAll es
    let _ ← Program.request (.insertMany c.collection documents)
    return saved

/-! ## Updating -/

/-- The version after one; none after the last. -/
def nextVersion (id : Int64) (version : Int32) : Except StoreError Int32 :=
  if version.toInt + 1 < 2147483648 then .ok (version + 1)
  else .error (.invalidArgument (.lastVersion id.toInt version.toInt))

/-- Why an update of a version found nothing to update: the step is gone or at another version. -/
def diagnose (c : StepCatalogue) (id : Int64) (expected : Int32) : Program StepExecution := do
  let found ← Program.findOne c.collection (.byId (.ofInt64 id))
  match found with
  | none => .fail (.notFound (.step id.toInt))
  | some d => do
    let stored ← Program.ofExcept ((StepRecord.ofDocument d).mapError .serialization)
    .fail (.optimisticLockConflict id.toInt expected.toInt stored.version.toInt)

/-- Write an execution over the version of it that is stored. -/
def update (c : StepCatalogue) (e : StepExecution) : Program StepExecution := do
  Program.ofExcept e.validate
  let id ← Program.ofExcept (StepExecution.need .noId e.id)
  let version ← Program.ofExcept (StepExecution.need .noVersion e.version)
  let next ← Program.ofExcept (nextVersion id version)
  let successor := e.identified id next
  let record ← Program.ofExcept (StepRecord.ofExecution successor c.cap)
  let current := (Filter.byId (.ofInt64 id)).and StepRecord.versionField (.ofInt32 version)
  let result ← Program.request (.updateFirst c.collection current record.update)
  if UpdateResult.matched result = 0 then c.diagnose id version else return successor

/-! ## Reading -/

/-- The records of the matching documents. -/
def records (c : StepCatalogue) (f : Filter) : Program (List StepRecord) := do
  let found ← Program.request (.find c.collection f)
  Program.ofExcept ((List.mapM StepRecord.ofDocument found).mapError .serialization)

/-- The step with an id under a run of a job. -/
def get (c : StepCatalogue) (job : JobExecution) (id : Int64) : Program StepExecution := do
  let f := (Filter.byId (.ofInt64 id)).and StepRecord.parentField (.ofInt64 job.id)
  match ← c.records f with
  | [] => .fail (.notFound (.stepOfJob id.toInt job.id.toInt))
  | [record] => return record.toExecution job
  | records => .fail (.multipleRecordsFound
      (idField ++ "=" ++ toString id.toInt ++ ", " ++ StepRecord.parentField ++ "=" ++
        toString job.id.toInt) records.length)

/-- The steps of a run of a job, by ascending id. -/
def findByJob (c : StepCatalogue) (job : JobExecution) : Program (List StepExecution) := do
  let records ← c.records (.eq StepRecord.parentField (.ofInt64 job.id))
  return (records.mergeSort fun r s => r.id ≤ s.id).map (·.toExecution job)

/-- The filter of a step of a job instance. -/
def ofInstance (jobInstance : Int64) (name : String) : Filter :=
  (Filter.eq StepRecord.parentInstanceField (.ofInt64 jobInstance)).and StepRecord.nameField
    (.string name)

/-- Whether a record started before another, or at the same time with a smaller id. -/
def startedBefore (r s : StepRecord) : Bool :=
  (r.startTime.compare s.startTime).then (compare r.id s.id) = .lt

/-- The record that started last; the later one in the list among equals. -/
def last? (records : List StepRecord) : Option StepRecord :=
  records.foldl (fun
    | none, record => some record
    | some last, record => some (if startedBefore record last then last else record)) none

/-- The execution of a step of a job instance that started last, in whatever run. -/
def getLast (c : StepCatalogue) (jobInstance : Int64) (name : String) :
    Program (Option StepExecution) := do
  let records ← c.records (ofInstance jobInstance name)
  return (last? records).map fun record => record.toExecution record.job

/-- How often a step of a job instance has been executed, in whatever run. -/
def count (c : StepCatalogue) (jobInstance : Int64) (name : String) : Program Nat :=
  Program.request (.count c.collection (ofInstance jobInstance name))

end StepCatalogue

end StepLedger

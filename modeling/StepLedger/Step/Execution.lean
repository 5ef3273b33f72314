import StepLedger.Status

/-!
# Step executions

A `StepExecution` is the state of one step within a run of a job. Its id and version belong to the
store: both are absent until it is saved. Name, start and status may be absent too, but not in a
record that is to be stored (`StepExecution.required`).
-/

namespace StepLedger

/-- A run of a job, and the job instance that it is a run of. -/
structure JobExecution where
  id : Int64
  jobInstance : Int64
deriving DecidableEq, Repr

/-- What a step has counted. -/
structure Counters where
  read : UInt32
  write : UInt32
  filter : UInt32
  commit : UInt32
  rollback : UInt32
  readSkip : UInt32
  writeSkip : UInt32
  processSkip : UInt32
deriving DecidableEq, Repr

namespace Counters

/-- Nothing counted. -/
def zero : Counters := ⟨0, 0, 0, 0, 0, 0, 0, 0⟩

/-- The counters with their names in messages. -/
def named (c : Counters) : List (String × UInt32) :=
  [("read count", c.read), ("write count", c.write), ("filter count", c.filter),
    ("commit count", c.commit), ("rollback count", c.rollback), ("read skip count", c.readSkip),
    ("write skip count", c.writeSkip), ("process skip count", c.processSkip)]

/-- The largest value that may be stored. -/
def limit : UInt32 := 2147483647

/-- Refuse the first counter above the limit. -/
def check (c : Counters) : Except StoreError Unit :=
  match c.named.find? fun counter => limit < counter.2 with
  | some (name, value) => .error (.invalidArgument (.counter name value.toNat limit.toNat))
  | none => .ok ()

/-- The skips while reading, processing and writing together. -/
def skips (c : Counters) : Nat := c.readSkip.toNat + c.writeSkip.toNat + c.processSkip.toNat

end Counters

/-- The state of one step within a run of a job. -/
structure StepExecution where
  id : Option Int64
  version : Option Int32
  name : Option String
  job : JobExecution
  startTime : Option Calendar.Instant
  endTime : Option Calendar.Instant
  status : Option BatchStatus
  exit : ExitStatus
  counters : Counters
  lastUpdated : Option Calendar.Instant
deriving DecidableEq, Repr

/-- What a record must have in order to be stored. -/
structure StepExecution.Required where
  name : String
  startTime : Calendar.Instant
  status : BatchStatus
deriving DecidableEq, Repr

namespace StepExecution

/-- A value that has to be there. -/
def need {α : Type} (absence : ArgumentError) : Option α → Except StoreError α
  | some a => .ok a
  | none => .error (.invalidArgument absence)

/-- What the record has of that which it must have. The name is missed first, then the start, then
the status; then the counters are checked. -/
def required (e : StepExecution) : Except StoreError Required := do
  let name ← need .noStepName e.name
  let startTime ← need .noStartTime e.startTime
  let status ← need .noStatus e.status
  e.counters.check
  return { name, startTime, status }

/-- Whether the record may be stored. -/
def validate (e : StepExecution) : Except StoreError Unit := e.required.map fun _ => ()

/-- The same state under an id and at a version. -/
def identified (e : StepExecution) (id : Int64) (version : Int32) : StepExecution :=
  { e with id, version }

end StepExecution

end StepLedger

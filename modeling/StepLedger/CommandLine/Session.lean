import StepLedger.CommandLine.Arguments
import StepLedger.Repository

/-!
# Running the command line

`run` carries out what was typed on a disk. What it prints, on which channel and with which exit
code, is a `Transcript`: code 0 after success, 1 after a command that failed and 2 for arguments
that make no sense. What was printed before a failure stays printed.
-/

namespace StepLedger.CommandLine

/-- What a run of the program leaves behind on the terminal. -/
structure Transcript where
  code : UInt32
  output : String
  errors : String
deriving DecidableEq, Repr

namespace Transcript

/-- A run that succeeded. -/
def success (output : String) : Transcript := ⟨0, output, ""⟩

/-- A text with four spaces in front of every line. -/
def indented (text : String) : String :=
  "\n".intercalate ((Text.split '\n' text.toList).map fun line => "    " ++ String.ofList line)

/-- A run that failed. -/
def failure (error : StoreError) : Transcript := ⟨1, "", "Error: " ++ error.message ++ "\n"⟩

/-- A run that failed after some output, with what could not be done because of the error. -/
def failureTo (purpose output : String) (error : StoreError) : Transcript :=
  ⟨1, output, "Error: " ++ purpose ++ "\n\nCaused by:\n" ++ indented error.message ++ "\n"⟩

end Transcript

/-! ## Tables -/

/-- A text at the right end of a column of at least `width` characters. -/
def alignRight (width : Nat) (text : String) : String :=
  String.ofList (List.replicate (width - text.length) ' ') ++ text

/-- A text at the left end of a column of at least `width` characters. -/
def alignLeft (width : Nat) (text : String) : String :=
  text ++ String.ofList (List.replicate (width - text.length) ' ')

/-- A line of the list of steps. -/
def line (id version name status read write exit : String) : String :=
  alignRight 8 id ++ " " ++ alignRight 7 version ++ "  " ++ alignLeft 24 name ++ " " ++
    alignLeft 10 status ++ " " ++ alignRight 6 read ++ " " ++ alignRight 6 write ++ "  " ++
    exit ++ "\n"

/-- The line above the list of steps. -/
def heading : String := line "ID" "VERSION" "STEP" "STATUS" "READ" "WRITE" "EXIT"

/-- A number as it stands in a table. -/
def shownInt (n : Int) : String := String.ofList (Decimal.ofInt n)

/-- The line of a step. -/
def summary (e : StepExecution) : String :=
  line (shownInt (e.id.getD 0).toInt) (shownInt (e.version.getD 0).toInt) (e.name.getD "-")
    ((e.status.map BatchStatus.name).getD "") (shownInt e.counters.read.toNat)
    (shownInt e.counters.write.toNat) e.exit.code

/-! ## Commands -/

/-- A program is given one round to win a race, as nobody else is at work. -/
def rounds : Nat := 1

/-- The result of a program that was carried out. -/
def result {α : Type} : Program.Outcome α → Except StoreError α
  | .returned a => .ok a
  | .failed e => .error e
  | .stalled => .error (.storeUnavailable (.other "every round of the allocation was lost"))

/-- Seed a sequence. -/
def seed (r : Repository) (name : String) (initial : Int64) (note : Option String) :
    Transcript × Repository :=
  let (outcome, r) := r.run (Sequence.Counter.seed r.config.sequenceCollection name initial
    (note.getD Sequence.defaultNote))
  match result outcome with
  | .ok counter => (.success (counter.id ++ " = " ++ shownInt counter.value.toInt ++ "\n"), r)
  | .error e => (.failureTo ("Failed to seed sequence '" ++ name ++ "'") "" e, r)

/-- Allocate values, each printed on a line as soon as it is there. -/
def next (r : Repository) (name : String) (output : String) : Nat → Transcript × Repository
  | 0 => (.success output, r)
  | count + 1 =>
    let (outcome, r) := r.run ((r.config.allocator rounds).next name)
    match result outcome with
    | .ok value => next r name (output ++ shownInt value.toInt ++ "\n") count
    | .error e => (.failureTo ("Failed to allocate from sequence '" ++ name ++ "'") output e, r)

/-- List the steps of a run of a job. -/
def list (r : Repository) (job : JobExecution) : Transcript × Repository :=
  let (outcome, r) := r.run ((r.config.steps rounds).findByJob job)
  match result outcome with
  | .ok [] =>
    (.success ("No step executions for job execution " ++ shownInt job.id.toInt ++ "\n"), r)
  | .ok steps => (.success (heading ++ String.join (steps.map summary)), r)
  | .error e => (.failure e, r)

/-- The text of a step: its document with the whole exit description. -/
def shownStep (e : StepExecution) : Except StoreError String := do
  let record ← StepRecord.ofExecution e e.exit.description.length
  return String.ofList (record.toDocument.toJson.value.renderIndented 0) ++ "\n"

/-- Print one step. -/
def print (r : Repository) (job : JobExecution) (step : Int64) : Transcript × Repository :=
  let (outcome, r) := r.run ((r.config.steps rounds).get job step)
  match result outcome >>= shownStep with
  | .ok text => (.success text, r)
  | .error e => (.failure e, r)

/-- Carry out a command. -/
def Command.run (r : Repository) : Command → Transcript × Repository
  | .seed name initial note => CommandLine.seed r name initial note
  | .next name count => CommandLine.next r name "" count.toNat
  | .list job jobInstance => CommandLine.list r ⟨job, jobInstance⟩
  | .print job step jobInstance => CommandLine.print r ⟨job, jobInstance⟩ step

/-! ## The program -/

/-- The configuration that arguments ask for. -/
def Arguments.config (a : Arguments) : Config :=
  { Config.default with
    dataDirectory := some a.dataDirectory
    sequenceCollection := a.sequenceCollection
    strategy := a.strategy }

/-- Name and version of the program. -/
def versionText : String := "batchstore 0.1.0\n"

/-- How the program is used. -/
def usageText : String :=
  "Usage: batchstore [--data-dir DIR] [--sequence-collection NAME] [--strategy NAME] COMMAND\n\n" ++
  "Commands:\n" ++
  "  seed NAME [--initial N] [--note TEXT]\n" ++
  "  next NAME [--count N]\n" ++
  "  list JOB_EXECUTION_ID --instance ID\n" ++
  "  show JOB_EXECUTION_ID STEP_ID --instance ID\n"

/-- Open the repository that arguments name and carry out the command. -/
def Arguments.run (disk : Disk) (a : Arguments) : Transcript × Disk :=
  match Repository.ofConfig disk a.config with
  | (outcome, disk) =>
    match result outcome with
    | .ok r =>
      let (transcript, r) := a.command.run r
      (transcript, r.store.diskOr disk)
    | .error e =>
      (.failureTo ("Failed to open repository in '" ++ a.dataDirectory ++ "'") "" e, disk)

/-- Carry out what was typed. -/
def run (disk : Disk) (arguments : List String) : Transcript × Disk :=
  match Arguments.ofList arguments with
  | .ok a => a.run disk
  | .error .help => (.success usageText, disk)
  | .error .version => (.success versionText, disk)
  | .error .usage => (⟨2, "", usageText⟩, disk)

end StepLedger.CommandLine

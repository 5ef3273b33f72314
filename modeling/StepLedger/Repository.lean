import StepLedger.Config
import StepLedger.Store
import StepLedger.Step.Catalogue

/-!
# Repositories

A `Repository` is a store with a configuration that says where in it the step executions and the
counters are. Opening one (`Repository.ofConfig`) makes sure that the counter of the ids of step
executions exists; it never resets it.
-/

namespace StepLedger

/-- A store of step executions and counters. -/
structure Repository where
  config : Config
  store : Store

namespace Config

/-- What hands out values of the sequences, in at most `rounds` rounds. -/
def allocator (c : Config) (rounds : Nat) : Sequence.Allocator :=
  ⟨c.sequenceCollection, c.strategy, rounds⟩

/-- Where step executions are stored. -/
def steps (c : Config) (rounds : Nat) : StepCatalogue where
  collection := c.stepCollection
  allocator := c.allocator rounds
  sequence := c.stepSequence
  cap := c.descriptionCap

/-- The program that makes sure that the counter of the ids of step executions exists. -/
def seedSteps (c : Config) : Program Sequence.Counter :=
  Sequence.Counter.seed c.sequenceCollection c.stepSequence 0 Sequence.defaultNote

end Config

namespace Repository

/-- The store of a configuration before anything is seeded. -/
def openStore (disk : Disk) (c : Config) : Except StoreError Store × Disk :=
  match c.dataDirectory with
  | none => (.ok .inMemory, disk)
  | some directory =>
    match Archive.ofDirectory disk directory .sync with
    | (.error e, disk) => (.error e, disk)
    | (.ok archive, disk) => (Store.ofArchive archive, disk)

/-- Open the repository of a configuration. The second part is the disk after that, also when the
repository cannot be opened. -/
def ofConfig (disk : Disk) (c : Config) : Program.Outcome Repository × Disk :=
  match c.validate with
  | .error e => (.failed (.invalidArgument (.config e)), disk)
  | .ok () =>
    match openStore disk c with
    | (.error e, disk) => (.failed e, disk)
    | (.ok store, disk) =>
      let (outcome, store) := c.seedSteps.run Store.answer store
      (outcome.map fun _ => ⟨c, store⟩, store.diskOr disk)

/-- Open the repository of a URL. -/
def ofUrl (disk : Disk) (url : String) : Program.Outcome Repository × Disk :=
  match Config.ofUrl url with
  | .ok c => ofConfig disk c
  | .error e => (.failed (.invalidArgument (.config e)), disk)

/-- Carry out a program with nobody else at work. -/
def run {α : Type} (r : Repository) (program : Program α) : Program.Outcome α × Repository :=
  let (outcome, store) := program.run Store.answer r.store
  (outcome, { r with store })

end Repository

end StepLedger

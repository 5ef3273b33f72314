import StepLedger.Proofs.Step.Lasting
import StepLedger.Proofs.Step.Ledger
import StepLedger.Repository

/-!
# Opening a repository

The first opening of a directory without files makes a durable store with a counter and without
steps, or fails and leaves no file (`Repository.ofConfig_first`). To open the directory of a durable
store that has a ledger changes no file, and the ledger is as before (`Repository.ofConfig_again`).
-/

namespace StepLedger

open Sequence

/-! ## Configurations -/

namespace Config

/-- Where the repositories of a configuration keep steps and counters. -/
def site (c : Config) : Site := ⟨c.stepCollection, c.sequenceCollection, c.stepSequence⟩

/-- How a repository of a configuration works, in at most `rounds` rounds. -/
def client (c : Config) (rounds : Nat) : Client := ⟨c.strategy, rounds, c.descriptionCap⟩

/-- A configuration is only valid with a proper sequence and two collections. -/
theorem of_validate {c : Config} (h : c.validate = .ok ()) :
    Sequence.checkName c.stepSequence = .ok () ∧ c.stepCollection ≠ c.sequenceCollection := by
  simp only [validate, checkName] at h
  split at h
  · cases h
  · split at h
    · cases h
    · split at h
      · cases h
      · split at h
        · cases h
        · split at h
          · cases h
          · next hblank hne => exact ⟨if_neg hblank, hne⟩

theorem openStore_eq {c : Config} {directory : String} (hdirectory : c.dataDirectory = some directory)
    {disk disk' : Disk} {a : Archive}
    (hmade : Archive.ofDirectory disk directory .sync = (.ok a, disk')) :
    Repository.openStore disk c = (Store.ofArchive a, disk') := by
  rw [Repository.openStore, hdirectory]
  dsimp only
  rw [hmade]

end Config

/-! ## Seeding -/

namespace Sequence.Counter

variable {collection name : String} {s s' : Store} {initial : Int64} {note : String}
  (hname : Sequence.checkName name = .ok ())
include hname

theorem run_seed_ok {d : Document} {counter : Counter}
    (h : s.findAndModify collection (.byId (.string name)) (seeding initial note) ⟨true, true⟩ =
      (.ok (some d), s')) (hdecode : decode d = .ok counter) :
    (seed collection name initial note).run Store.answer s = (.returned counter, s') := by
  rw [seed_eq hname]
  refine (Program.run_ask_ok h).trans ?_
  rw [Allocator.ofFound_eq_ok hdecode]
  rfl

theorem run_seed_error {e : StoreError}
    (h : s.findAndModify collection (.byId (.string name)) (seeding initial note) ⟨true, true⟩ =
      (.error e, s')) :
    (seed collection name initial note).run Store.answer s = (.failed e, s') := by
  rw [seed_eq hname]
  exact Program.run_ask_error h

end Sequence.Counter

namespace Repository

open Store

variable {c : Config} {directory : String}

/-- What becomes of an opening when the store is there. -/
theorem ofConfig_of_openStore (hvalid : c.validate = .ok ()) {disk disk' : Disk} {s s' : Store}
    (hopen : openStore disk c = (.ok s, disk')) {outcome : Program.Outcome Counter}
    (hseed : c.seedSteps.run Store.answer s = (outcome, s')) :
    ofConfig disk c = (outcome.map fun _ => ⟨c, s'⟩, s'.diskOr disk') := by
  rw [ofConfig, hvalid]
  dsimp only
  rw [hopen]
  dsimp only
  rw [hseed]

theorem fst_run {α : Type} (r : Repository) (program : Program α) :
    (r.run program).1 = (program.run Store.answer r.store).1 := rfl

theorem run_of_store {α : Type} {r : Repository} {program : Program α}
    {outcome : Program.Outcome α} {s : Store} (h : program.run Store.answer r.store = (outcome, s)) :
    r.run program = (outcome, { r with store := s }) := by
  rw [run, h]

/-! ## Opening again -/

/-- To open the directory of a durable store that has a counter for the ids succeeds, changes no file
and gives a store with the same documents. -/
theorem ofConfig_reopened (hvalid : c.validate = .ok ()) (hdirectory : c.dataDirectory = some directory)
    {s : Store} (hs : s.Durable directory) {value : Int64}
    (hv : s.lastValue? c.sequenceCollection c.stepSequence = some value) {a : Archive}
    (ha : s.archive = some a) :
    ∃ s', ofConfig a.disk c = (.returned ⟨c, s'⟩, a.disk) ∧ s'.Durable directory ∧
      (∀ name, (s'.view name).documents = (s.view name).documents) ∧
      s'.archive = some { a with durability := .sync } := by
  obtain ⟨hname, -⟩ := Config.of_validate hvalid
  obtain ⟨b, s', hb, hmade, hload, harchive, hdurable, hdocuments⟩ := hs.reopen .sync
  obtain rfl : a = b := Option.some.inj (ha.symm.trans hb)
  have hv' : s'.lastValue? c.sequenceCollection c.stepSequence = some value :=
    (Store.lastValue?_of_documents (hdocuments _) _).trans hv
  have hcheck := hdurable.check (Store.documents_ne_nil_of_lastValue? hdurable.wellFormed hv')
  obtain ⟨d, counter, hseed, hdecode, -⟩ :=
    Store.seed_idle hdurable.wellFormed hv' harchive hcheck 0 Sequence.defaultNote
  have hopen := ofConfig_of_openStore hvalid ((c.openStore_eq hdirectory hmade).trans (by rw [hload]))
    (Counter.run_seed_ok hname hseed hdecode)
  refine ⟨s', ?_, hdurable, hdocuments, harchive⟩
  rw [hopen, Store.diskOr, harchive]
  rfl

/-- What is opened again has the same ledger. -/
theorem ofConfig_again (hvalid : c.validate = .ok ()) (hdirectory : c.dataDirectory = some directory)
    {s : Store} (hs : s.Durable directory) {value : Int64} {records : List StepRecord}
    (hledger : Ledger c.site s value records) {a : Archive} (ha : s.archive = some a) :
    ∃ s', ofConfig a.disk c = (.returned ⟨c, s'⟩, a.disk) ∧ s'.Durable directory ∧
      Ledger c.site s' value records ∧ s'.archive = some { a with durability := .sync } := by
  obtain ⟨s', hopen, hdurable, hdocuments, harchive⟩ :=
    ofConfig_reopened hvalid hdirectory hs hledger.counter ha
  exact ⟨s', hopen, hdurable, hledger.of_documents hdurable.wellFormed hdocuments, harchive⟩

/-! ## Opening for the first time -/

/-- Where nothing has been written to, a counter is made, or nothing has been written to after that. -/
theorem run_seedSteps (hvalid : c.validate = .ok ()) {s : Store} {a : Archive} (hs : s.WellFormed)
    (hstep : InStep directory s a fun _ => False) (hopened : s.closed = false) :
    (∃ counter s', c.seedSteps.run Store.answer s = (.returned counter, s') ∧ s'.Durable directory ∧
      ∃ value, Ledger c.site s' value []) ∨
      ∃ e s' a', c.seedSteps.run Store.answer s = (.failed e, s') ∧
        InStep directory s' a' fun _ => False := by
  obtain ⟨hname, happart⟩ := Config.of_validate hvalid
  have hblank : ∀ name, (s.view name).documents = [] := fun name => hstep.blank name not_false
  have hposes : c.site.Poses (.findAndModify c.site.counters (.byId (.string c.stepSequence))
    (Counter.seeding 0 defaultNote) ⟨true, true⟩) := .seed c.stepSequence 0 defaultNote
  obtain ⟨hrequest, hdrop⟩ := hposes.durable
  obtain ⟨a', hstep'⟩ := hstep.answer hs _ fun name heq => absurd heq (hdrop name)
  have hdurable := hstep.durable_of_blank hs hopened
  have hdurable' := hdurable.answer hrequest hdrop
  cases hseed : s.findAndModify c.site.counters (.byId (.string c.stepSequence))
      (Counter.seeding 0 defaultNote) ⟨true, true⟩ with
  | mk result s' =>
    rw [Store.answer, hseed] at hstep' hdurable'
    cases result with
    | error e =>
      refine .inr ⟨e, s', a', Counter.run_seed_error hname hseed, hstep'.congr fun name => ?_⟩
      have halike := (Store.findAndModify_error hs hseed).1
      simp [nowWritten, halike name]
    | ok found =>
      obtain ⟨d, rfl, hdecode, hcounter, hbecomes⟩ :=
        Store.seed_new hs (Store.counter?_of_documents_nil (hblank _)) hseed
      refine .inl ⟨_, s', Counter.run_seed_ok hname hseed hdecode, hdurable', 0,
        hdurable'.wellFormed, ?_, ?_, by simp⟩
      · exact Store.lastValue?_eq_some_iff.2 ⟨d, _, hcounter, hdecode, rfl⟩
      · rw [show (s'.view c.site.steps) = _ from hbecomes.others _ happart, hblank]
        rfl

/-- In a directory without files a repository is opened with a counter and without steps, or there
are still no files. -/
theorem ofConfig_first (hdirectory : c.dataDirectory = some directory) {disk : Disk}
    (hbare : disk.Bare directory) :
    (∃ s a value, c.validate = .ok () ∧ ofConfig disk c = (.returned ⟨c, s⟩, a.disk) ∧
      s.archive = some a ∧ s.Durable directory ∧ Ledger c.site s value []) ∨
      ∃ e disk', ofConfig disk c = (.failed e, disk') ∧ disk'.Bare directory := by
  cases hvalid : c.validate with
  | error e => exact .inr ⟨_, disk, by rw [ofConfig, hvalid], hbare⟩
  | ok _ =>
    have hfiles := hbare.createDirectories
    rw [← Archive.snd_ofDirectory disk directory .sync] at hfiles
    cases hmade : Archive.ofDirectory disk directory .sync with
    | mk result disk' =>
      rw [hmade] at hfiles
      cases result with
      | error e =>
        refine .inr ⟨e, disk', ?_, hfiles⟩
        rw [ofConfig, hvalid, openStore, hdirectory]
        dsimp only
        rw [hmade]
      | ok a =>
        have hopen := c.openStore_eq hdirectory hmade
        cases hload : Store.ofArchive a with
        | error e =>
          refine .inr ⟨e, disk', ?_, hfiles⟩
          rw [ofConfig, hvalid, hopen, hload]
        | ok s =>
          rw [hload] at hopen
          have hstep := Store.inStep_of_bare hbare hmade hload
          obtain ⟨counter, s', hseed, hdurable, value, hledger⟩ | ⟨e, s', a', hseed, hstep'⟩ :=
            run_seedSteps hvalid (wellFormed_of_ofArchive hload) hstep (archive_of_ofArchive hload).2
          · obtain ⟨a', _, hstep'⟩ := hdurable.inStep
            refine .inl ⟨s', a', value, rfl, ?_, hstep'.durable, hdurable, hledger⟩
            rw [ofConfig_of_openStore hvalid hopen hseed, Store.diskOr, hstep'.durable]
            rfl
          · refine .inr ⟨e, a'.disk, ?_, hstep'.bare fun _ => not_false⟩
            rw [ofConfig_of_openStore hvalid hopen hseed, Store.diskOr, hstep'.durable]
            rfl

end Repository

end StepLedger

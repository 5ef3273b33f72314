import StepLedger.Proofs.Repository.Soundness
import StepLedger.Proofs.Sequence.Serving
import StepLedger.Proofs.Step.Lossless
import StepLedger.Proofs.Store.Twins

/-!
# What an accepted configuration is good for

A repository in memory can be opened with any configuration that is valid and names a collection for the
counters that the store admits. The collection of the steps is named in the same place, but nothing
touches it before the first step is saved. `Repository.first_save` says what becomes of that save: it
succeeds under id 1 at version 0 and is read back, if the store admits the name of the collection of the
steps, and fails otherwise.
-/

namespace StepLedger

open Sequence

/-! ## Saving -/

namespace Operation

variable {site : Site} {client : Client} {s between s' : Store} {e : StepExecution} {id : Int64}
  {r : StepRecord}

theorem checkNew_eq_ok (hid : e.id = none) (hversion : e.version = none)
    (hvalid : e.validate = .ok ()) : StepCatalogue.checkNew e = .ok () := by
  rw [StepCatalogue.checkNew, hvalid, Except.ok_bind, hid, hversion]
  rfl

section

variable (hnew : StepCatalogue.checkNew e = .ok ())
  (hnext : ((site.allocator client).next site.sequence).run Store.answer s = (.returned id, between))
  (hr : StepRecord.ofExecution (e.identified id 0) client.cap = .ok r)
include hnew hnext hr

/-- A save allocates an id and asks to insert the record under it. -/
theorem run_save : ((site.catalogue client).save e).run Store.answer s =
    (Program.bind (.request (.insertOne site.steps r.toDocument))
      fun _ => .done (e.identified id 0)).run Store.answer between := by
  have hidentify : ((site.catalogue client).identify e).run Store.answer s =
      (.returned (e.identified id 0, r.toDocument), between) := by
    rw [show (site.catalogue client).identify e = _ from Program.ofExcept_bind_ok hnew]
    refine (Program.run_bind _ _ _ _).trans ?_
    refine (congrArg (Program.Outcome.andThen Store.answer _) hnext).trans ?_
    show (Program.bind (.ofExcept (StepRecord.ofExecution (e.identified id 0) client.cap)) _).run
      Store.answer between = _
    rw [Program.ofExcept_bind_ok hr]
    rfl
  refine (Program.run_bind _ _ _ _).trans ?_
  rw [hidentify]
  rfl

theorem run_save_ok (hinsert : between.insertOne site.steps r.toDocument = (.ok (), s')) :
    ((site.catalogue client).save e).run Store.answer s = (.returned (e.identified id 0), s') :=
  (run_save hnew hnext hr).trans (Program.run_ask_ok hinsert)

theorem run_save_error {error : StoreError}
    (hinsert : between.insertOne site.steps r.toDocument = (.error error, s')) :
    ((site.catalogue client).save e).run Store.answer s = (.failed error, s') :=
  (run_save hnew hnext hr).trans (Program.run_ask_error hinsert)

end

end Operation

/-! ## Repositories in memory -/

/-- The store is open and kept in memory only. -/
structure Store.Volatile (s : Store) : Prop where
  wellFormed : s.WellFormed
  memory : s.archive = none
  opened : s.closed = false

namespace Store.Volatile

variable {s : Store} {name : String}

theorem inMemory : Store.inMemory.Volatile := ⟨Store.Reachable.inMemory.wellFormed, rfl, rfl⟩

theorem answer (h : s.Volatile) (request : Request) : (s.answer request).2.Volatile where
  wellFormed := h.wellFormed.answer request
  memory := Store.archive_answer h.memory h.wellFormed request
  opened := (Store.closed_answer h.wellFormed request).trans h.opened

/-- Whatever a program asks, it leaves such a store. -/
theorem run {α : Type} {P : Request → Prop} {Q : α → Prop} {program : Program α} {s' : Store}
    {outcome : Program.Outcome α} (h : s.Volatile) (hasks : program.Asks P Q)
    (hrun : program.run Store.answer s = (outcome, s')) : s'.Volatile := by
  have hafter := hasks.run (motive := Store.Volatile) (fun s request hs _ => hs.answer request) h
  rwa [hrun] at hafter

/-- It serves every collection that may have its name. -/
theorem serves (h : s.Volatile) (hname : Store.isName name = true) : s.Serves name :=
  Store.serves_of_memory h.memory (Store.check_eq_ok.2 ⟨h.opened, hname⟩)

/-- It refuses to insert into a collection that may not have its name. -/
theorem insertOne_refused (h : s.Volatile) (hname : Store.isName name = false) (d : Document) :
    s.insertOne name d = (.error (.invalidArgument (.collectionName name)), s) := by
  have hcheck : s.check name = .error (.invalidArgument (.collectionName name)) := by
    rw [Store.check, h.opened, hname]
    rfl
  exact Store.mutate_of_refused hcheck

end Store.Volatile

namespace Repository

variable {c : Config} {disk disk' : Disk} {r : Repository}

/-- A seed that returns has been answered. -/
theorem isName_of_run_seed {collection name : String} {initial : Int64} {note : String} {s s' : Store}
    {counter : Counter}
    (h : (Counter.seed collection name initial note).run Store.answer s = (.returned counter, s')) :
    Store.isName collection = true := by
  obtain ⟨_, -, h⟩ := Program.ofExcept_bind_returned h
  obtain ⟨found, between, hrequest, -⟩ := Program.bind_returned h
  have hanswer : s.findAndModify collection (.byId (.string name)) (Counter.seeding initial note)
      ⟨true, true⟩ = (.ok found, between) := Program.request_returned hrequest
  rw [Store.findAndModify_eq_mutate s collection _ _ (Counter.isEmpty_seeding initial note)] at hanswer
  exact (Store.check_eq_ok.1 (Store.check_of_mutate hanswer)).2

/-- A repository that was opened in memory is open there with a counter at zero and no steps. -/
theorem volatile_of_ofConfig (hmemory : c.dataDirectory = none)
    (h : ofConfig disk c = (.returned r, disk')) : r.store.Volatile ∧ Ledger c.site r.store 0 [] ∧
      Sequence.checkName c.stepSequence = .ok () ∧ Store.isName c.sequenceCollection = true := by
  obtain ⟨hvalid, s, disk'', counter, hopen, hseed⟩ := returned_of_ofConfig h
  obtain rfl : s = .inMemory := by
    rw [openStore, hmemory] at hopen
    cases hopen
    rfl
  have hposes : c.site.Poses (.findAndModify c.site.counters (.byId (.string c.stepSequence))
    (Counter.seeding 0 defaultNote) ⟨true, true⟩) := .seed c.stepSequence 0 defaultNote
  have hvolatile := Store.Volatile.inMemory.run (Operation.asks_seed 0 defaultNote hposes) hseed
  obtain ⟨hledger, -⟩ := seeded_of_blank hvalid Store.Volatile.inMemory.wellFormed (fun _ => rfl) hseed
  exact ⟨hvolatile, hledger, (Config.of_validate hvalid).1, isName_of_run_seed hseed⟩

/-- The first id that is handed out is 1. -/
theorem next_of_ofConfig (hmemory : c.dataDirectory = none)
    (h : ofConfig disk c = (.returned r, disk')) (rounds : Nat) :
    ∃ s, ((c.site.allocator (c.client (rounds + 1))).next c.stepSequence).run Store.answer r.store =
        (.returned 1, s) ∧ s.Volatile ∧ (s.view c.site.steps).keys = [] ∧
      s.lastValue? c.sequenceCollection c.stepSequence = some 1 := by
  obtain ⟨hvolatile, hledger, hname, hadmitted⟩ := volatile_of_ofConfig hmemory h
  have hserves : r.store.Serves (c.site.allocator (c.client (rounds + 1))).collection :=
    hvolatile.serves hadmitted
  obtain ⟨s, hnext, hadvances⟩ := Allocator.run_next hname (Nat.succ_pos rounds) hvolatile.wellFormed
    hserves hledger.counter (by decide : Update.addChecked 0 1 = some 1)
  refine ⟨s, hnext, hvolatile.run (Operation.poses_next c.stepSequence) hnext, ?_, hadvances.value⟩
  rw [hadvances.others c.site.steps hledger.apart]
  exact hledger.keys

/-- Let a repository be opened in memory and let a valid execution be new. If the store admits the
name of the collection of the steps, the first save of it succeeds under id 1 at version 0, and it is
read back with its description cut and nanoseconds carried; so it is read back but for the cut exactly
if there is nothing to carry. If the name is not admitted, the save fails over it, and id 1 is used
up. -/
theorem first_save (hmemory : c.dataDirectory = none) (hopen : ofConfig disk c = (.returned r, disk'))
    {e : StepExecution} (hid : e.id = none) (hversion : e.version = none)
    (hvalid : e.validate = .ok ()) (rounds : Nat) :
    (Store.isName c.stepCollection = true → ∃ r',
      r.run ((c.steps (rounds + 1)).save e) = (.returned (e.identified 1 0), r') ∧
      r'.run ((c.steps (rounds + 1)).get e.job 1) =
        (.returned ((e.carried.identified 1 0).cut c.descriptionCap), r') ∧
      (r'.run ((c.steps (rounds + 1)).get e.job 1) =
        (.returned ((e.identified 1 0).cut c.descriptionCap), r') ↔ e.Proper)) ∧
    (Store.isName c.stepCollection = false → ∃ r',
      r.run ((c.steps (rounds + 1)).save e) =
        (.failed (.invalidArgument (.collectionName c.stepCollection)), r') ∧
      r'.store.lastValue? c.sequenceCollection c.stepSequence = some 1) := by
  obtain ⟨between, hnext, hvolatile, hkeys, hused⟩ := next_of_ofConfig hmemory hopen rounds
  have hnew := Operation.checkNew_eq_ok hid hversion hvalid
  obtain ⟨record, hrecord, -⟩ := StepRecord.exists_ofExecution (e := e.identified 1 0) rfl rfl hvalid
    (c.client (rounds + 1)).cap
  constructor
  · intro hadmitted
    have hinsert : (between.view c.site.steps).insert record.toDocument = .ok _ :=
      Collection.insert_of_key record.key?_toDocument (by rw [hkeys]; exact List.not_mem_nil)
    have hserves : between.Serves c.site.steps := hvolatile.serves hadmitted
    obtain ⟨s', hinserted⟩ := hserves.insertOne hvolatile.wellFormed hinsert
    have hsave := Operation.run_save_ok hnew hnext hrecord hinserted
    have hget : ((c.site.catalogue (c.client (rounds + 1))).get e.job 1).run Store.answer s' = _ :=
      get_after_save hvolatile.wellFormed hrecord hinserted
    have hread : Repository.run { r with store := s' } ((c.steps (rounds + 1)).get e.job 1) =
        (.returned ((e.carried.identified 1 0).cut c.descriptionCap), { r with store := s' }) :=
      run_of_store hget
    refine ⟨{ r with store := s' }, run_of_store hsave, hread, ?_⟩
    rw [hread, Prod.mk.injEq, and_iff_left rfl, Program.Outcome.returned.injEq]
    exact StepExecution.carried_eq_self_iff (e := (e.identified 1 0).cut c.descriptionCap)
  · intro hrefused
    have hsave := Operation.run_save_error hnew hnext hrecord
      (hvolatile.insertOne_refused hrefused record.toDocument)
    exact ⟨{ r with store := between }, run_of_store hsave, hused⟩

/-- Three characters of an exit description are stored, and ids are allocated in rounds. -/
def terse : Config := { Config.default with descriptionCap := 3, strategy := .compareAndSwap }

/-- The first step is read back with three characters of its description. -/
theorem first_save_of_terse :
    terse.dataDirectory = none ∧ StepExecution.opening.id = none ∧
    StepExecution.opening.version = none ∧ StepExecution.opening.validate = .ok () ∧
    Store.isName terse.stepCollection = true ∧ ∃ r r',
      ofConfig (Archive.drawer none).disk terse = (.returned r, (Archive.drawer none).disk) ∧
      r.run ((terse.steps 1).save .opening) = (.returned (.identified .opening 1 0), r') ∧
      r'.run ((terse.steps 1).get ⟨7, 3⟩ 1) =
        (.returned { StepExecution.opening.identified 1 0 with exit := ⟨"EXECUTING", "und"⟩ }, r') := by
  have hadmitted : Store.isName terse.stepCollection = true := by decide
  have hopen : ofConfig (Archive.drawer none).disk terse =
      (.returned ⟨terse, (terse.seedSteps.run Store.answer .inMemory).2⟩, (Archive.drawer none).disk) :=
    rfl
  obtain ⟨r', hsave, hget, -⟩ := (first_save rfl hopen (e := .opening) rfl rfl rfl 0).1 hadmitted
  exact ⟨rfl, rfl, rfl, rfl, hadmitted, _, r', hopen, hsave, hget⟩

/-- The collection of the steps has a blank in its name. -/
def gapped : Config := { Config.default with stepCollection := "batch steps" }

/-- The configuration is opened, and no step can be saved. -/
theorem gapped_opens_and_refuses :
    gapped.dataDirectory = none ∧ StepExecution.opening.id = none ∧
    StepExecution.opening.version = none ∧ StepExecution.opening.validate = .ok () ∧ ∃ r,
      ofConfig (Archive.drawer none).disk gapped = (.returned r, (Archive.drawer none).disk) ∧
      (r.run ((gapped.steps 1).save .opening)).1 =
        .failed (.invalidArgument (.collectionName "batch steps")) :=
  ⟨rfl, rfl, rfl, rfl, _, rfl, by decide +kernel⟩

end Repository

end StepLedger

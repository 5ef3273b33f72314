import StepLedger.Proofs.Repository.Opening
import StepLedger.Proofs.Sequence.Spending
import StepLedger.Proofs.Step.Lossless
import StepLedger.Proofs.Step.ReadAfterWrite

/-!
# Saves that fail

A save looks for faults in the record before it asks anything of the store, so a record that has one
costs no id (`StepCatalogue.checkNew_eq`). After that only the two requests can fail, because a record
without faults can be laid out under every id: the save fails where the allocation does or where the
insertion does (`StepCatalogue.failedSave`). Neither leaves a step behind, and the allocation takes one
id at most (`Config.failed_save`).
-/

namespace StepLedger

open Sequence

namespace StepExecution

/-- What is wrong with a record that is to be saved as a new one, in the order in which it is looked
for. -/
def faults (e : StepExecution) : List ArgumentError :=
  (if e.name.isNone then [.noStepName] else []) ++
  (if e.startTime.isNone then [.noStartTime] else []) ++
  (if e.status.isNone then [.noStatus] else []) ++
  (e.counters.named.filter fun counter => Counters.limit < counter.2).map (fun counter =>
    .counter counter.1 counter.2.toNat Counters.limit.toNat) ++
  (if e.id.isSome then [.hasId] else []) ++
  (if e.version.isSome then [.hasVersion] else [])

end StepExecution

namespace StepCatalogue

variable {c : StepCatalogue} {e : StepExecution} {error : StoreError}

/-- The first fault is reported. -/
theorem checkNew_eq (e : StepExecution) : checkNew e =
    match e.faults.head? with
    | some fault => .error (.invalidArgument fault)
    | none => .ok () := by
  obtain ⟨id, version, name, job, startTime, endTime, status, exit, counters, lastUpdated⟩ := e
  cases name with
  | none => rfl
  | some name =>
  cases startTime with
  | none => rfl
  | some startTime =>
  cases status with
  | none => rfl
  | some status =>
  simp only [checkNew, StepExecution.validate, StepExecution.required, StepExecution.need,
    StepExecution.faults, Except.ok_bind, List.head?_append, List.head?_map, List.head?_filter]
  cases hfound : counters.named.find? fun counter => Counters.limit < counter.2 with
  | some counter =>
    have hcheck : counters.check = .error (.invalidArgument
        (.counter counter.1 counter.2.toNat Counters.limit.toNat)) := by
      simp [Counters.check, hfound]
    rw [hcheck]
    rfl
  | none =>
    have hcheck : counters.check = .ok () := by simp [Counters.check, hfound]
    rw [hcheck]
    cases id <;> cases version <;> rfl

/-- How a save fails. -/
inductive FailedSave {σ : Type} (serve : Server σ) (c : StepCatalogue) (e : StepExecution)
    (state : σ) (error : StoreError) (state' : σ) : Prop
  /-- The record has a fault. -/
  | rejected (fault : ArgumentError) (first : e.faults.head? = some fault)
    (reported : error = .invalidArgument fault) (same : state' = state)
  /-- No id was allocated. -/
  | unallocated (faultless : e.faults = [])
    (failed : (c.allocator.next c.sequence).run serve state = (.failed error, state'))
  /-- The record could not be inserted under the id that was allocated. -/
  | uninserted {id : Int64} {between : σ} {r : StepRecord} (faultless : e.faults = [])
    (allocated : (c.allocator.next c.sequence).run serve state = (.returned id, between))
    (laidOut : StepRecord.ofExecution (e.identified id 0) c.cap = .ok r)
    (refused : serve between (.insertOne c.collection r.toDocument) = (.error error, state'))

/-- A record without faults may be stored. -/
theorem validate_of_faultless (h : e.faults = []) :
    checkNew e = .ok () ∧ e.validate = .ok () := by
  have hnew : checkNew e = .ok () := by
    rw [checkNew_eq, h]
    rfl
  obtain ⟨_, hvalid, -⟩ := Except.bind_eq_ok.1 hnew
  exact ⟨hnew, hvalid⟩

variable {σ : Type} {serve : Server σ} {state state' : σ}

/-- Of a record with a fault nothing is asked of the store. -/
theorem run_save_of_fault {fault : ArgumentError} (h : e.faults.head? = some fault) :
    (c.save e).run serve state = (.failed (.invalidArgument fault), state) := by
  have hnew : checkNew e = .error (.invalidArgument fault) := by rw [checkNew_eq, h]
  have hidentify : c.identify e = .fail (.invalidArgument fault) := Program.ofExcept_bind_error hnew
  refine (Program.run_bind _ _ _ _).trans ?_
  rw [hidentify]
  rfl

/-- A save fails over the record, over its id or over its insertion, and over nothing else. -/
theorem failedSave (h : (c.save e).run serve state = (.failed error, state')) :
    FailedSave serve c e state error state' := by
  cases hfaults : e.faults with
  | cons fault faults =>
    have hhead : e.faults.head? = some fault := by
      rw [hfaults]
      rfl
    cases (run_save_of_fault hhead).symm.trans h
    exact .rejected fault hhead rfl rfl
  | nil =>
    obtain ⟨hnew, hvalid⟩ := validate_of_faultless hfaults
    have hidentify : c.identify e = (c.allocator.next c.sequence).bind fun id =>
        (Program.ofExcept (StepRecord.ofExecution (e.identified id 0) c.cap)).bind fun r =>
          .done (e.identified id 0, r.toDocument) := Program.ofExcept_bind_ok hnew
    obtain hfirst | ⟨⟨saved, document⟩, between, hfirst, hinsert⟩ := Program.bind_failed h
    · rw [hidentify] at hfirst
      obtain hnext | ⟨id, between, hnext, hlaid⟩ := Program.bind_failed hfirst
      · exact .unallocated hfaults hnext
      · obtain ⟨r, hr, -⟩ := StepRecord.exists_ofExecution (e := e.identified id 0) rfl rfl hvalid
          c.cap
        rw [Program.ofExcept_bind_ok hr] at hlaid
        cases hlaid
    · rw [hidentify] at hfirst
      obtain ⟨id, between', hnext, hlaid⟩ := Program.bind_returned hfirst
      obtain ⟨r, hr, hdone⟩ := Program.ofExcept_bind_returned hlaid
      cases hdone
      obtain hrequest | ⟨_, _, -, hreturn⟩ := Program.bind_failed hinsert
      · exact .uninserted hfaults hnext hr (Program.request_failed hrequest)
      · cases hreturn

end StepCatalogue

namespace Config

variable {c : Config} {t : Scheduled}

/-- Let the requests of a save find the disk in any conditions. Over a record with a fault it fails with
the first of them, and nothing has changed. If it fails otherwise, the allocation has failed or the
insertion, the collection of the steps is as before, and of the counters at most that of the ids has
changed: one was added to its value. -/
theorem failed_save (hvalid : c.validate = .ok ()) (ht : t.store.Reachable) (rounds : Nat)
    (e : StepExecution) :
    (∀ fault, e.faults.head? = some fault →
      ((c.steps rounds).save e).run Scheduled.answer t = (.failed (.invalidArgument fault), t)) ∧
    ∀ error t', ((c.steps rounds).save e).run Scheduled.answer t = (.failed error, t') →
      (c.steps rounds).FailedSave Scheduled.answer e t error t' ∧
      t'.store.view c.stepCollection = t.store.view c.stepCollection ∧
      t.store.Spent t'.store c.sequenceCollection c.stepSequence := by
  refine ⟨fun fault => StepCatalogue.run_save_of_fault, fun error t' h => ?_⟩
  have hfailed := StepCatalogue.failedSave h
  suffices hspent : t.store.Spent t'.store c.sequenceCollection c.stepSequence from
    ⟨hfailed, hspent.view_ne (of_validate hvalid).2, hspent⟩
  cases hfailed with
  | rejected fault _ _ same => exact same ▸ .inl (Store.Alike.refl _)
  | unallocated _ failed => exact Allocator.spent_next ht failed
  | @uninserted id between r _ allocated _ refused =>
    have hbetween := (Scheduled.reachable_met (Scheduled.reachable_run ht allocated)).wellFormed
    have halike := between.alike_met.trans
      (Store.insertOne_error hbetween (Scheduled.answer_met refused))
    exact (Allocator.spent_next ht allocated).alike halike

/-- A store in a directory with a counter at zero; the disk accepts the first of two requests. -/
def halting : Scheduled where
  store := ((Store.cabinet none).answer (.insertOne default.sequenceCollection (.ofList
    [(idField, .string default.stepSequence), (valueField, .ofInt64 0)]))).2
  conditions := [⟨(Archive.drawer none).disk.now, none⟩, ⟨(Archive.drawer none).disk.now, some .flush⟩]

theorem reachable_halting : halting.store.Reachable := .answer _ (Store.reachable_cabinet none)

/-- Of a record with an id and without a name the name is missed, and nothing has changed. A record
without faults is not stored, because the disk is full, and the id 1 is used up. -/
theorem failed_save_of_opening : default.validate = .ok () ∧ halting.store.Reachable ∧
    ((default.steps 1).save { StepExecution.opening with id := some 1, name := none }).run
      Scheduled.answer halting = (.failed (.invalidArgument .noStepName), halting) ∧
    ∃ outage t', ((default.steps 1).save .opening).run Scheduled.answer halting =
        (.failed (.storeUnavailable outage), t') ∧
      (t'.store.view default.stepCollection).documents = [] ∧
      halting.store.Spent t'.store default.sequenceCollection default.stepSequence ∧
      t'.store.lastValue? default.sequenceCollection default.stepSequence = some 1 := by
  have hvalid : default.validate = .ok () := rfl
  have hfull : (((default.steps 1).save .opening).run Scheduled.answer halting).1 =
      .failed (.storeUnavailable (.flush .noSpace)) := by decide +kernel
  obtain ⟨t', hsave, hused⟩ : ∃ t', ((default.steps 1).save .opening).run Scheduled.answer halting =
      (.failed (.storeUnavailable (.flush .noSpace)), t') ∧
      t'.store.lastValue? default.sequenceCollection default.stepSequence = some 1 :=
    ⟨_, Prod.ext hfull rfl, by decide +kernel⟩
  obtain ⟨-, hsteps, hspent⟩ := (failed_save hvalid reachable_halting 1 .opening).2 _ t' hsave
  refine ⟨hvalid, reachable_halting, ?_, _, t', hsave, ?_, hspent, hused⟩
  · exact (failed_save hvalid reachable_halting 1 _).1 .noStepName rfl
  · rw [hsteps]
    rfl

end Config

end StepLedger

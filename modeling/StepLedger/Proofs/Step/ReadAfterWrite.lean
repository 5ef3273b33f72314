import StepLedger.Proofs.Step.Legible

/-!
# Reading what was written

In every store that operations of any clients lead to, an execution that has been saved is read back
under its id at version 0, and one that has been updated at the next version with what the update
passed; only the exit description may have been cut, and nanoseconds of a leap second that is none are
carried. An update changes nothing but the mutable fields of the one document.
-/

namespace StepLedger

open Sequence

/-! ## Stores that operations lead to -/

/-- The stores that operations of any clients lead to, from one whose collection of steps holds
nothing else. -/
def Site.Leads (site : Site) (s : Store) : Prop :=
  ∃ (first : Store) (moves : List (Move Command)), first.Reachable ∧
    first.HoldsSteps site.steps ∧ s = ((World.ofStore first).run site.program moves).store

/-- Operations keep a collection of steps. -/
theorem Site.Leads.holdsSteps {site : Site} {s : Store} (h : site.Leads s) :
    s.WellFormed ∧ s.HoldsSteps site.steps := by
  obtain ⟨first, moves, hfirst, hsteps, rfl⟩ := h
  exact Store.Holds.run Store.isKept_isStored hfirst hsteps moves

/-! ## Requests that succeed -/

namespace Store

variable {s s' : Store} {name : String}

theorem closed_commit {α : Type} {before : Collection} {outcome : Except StoreError α × Collection} :
    (s.commit before outcome).2.closed = s.closed := by
  unfold commit
  cases s.archive with
  | none => rfl
  | some archive =>
    dsimp only
    split
    · rfl
    · split <;> rfl

/-- Where a change succeeds, requests are answered after it too. -/
theorem check_of_mutate {α : Type} {create : Bool} {absent a : α}
    {operation : Collection → Except StoreError α × Collection}
    (h : s.mutate name create absent operation = (.ok a, s')) : s'.check name = .ok () := by
  unfold mutate at h
  cases hcheck : s.check name with
  | error e => rw [hcheck] at h; cases h
  | ok _ =>
    rw [hcheck] at h
    have hclosed : s'.closed = s.closed := by
      have hsnd := congrArg Prod.snd h
      dsimp only at hsnd
      split at hsnd
      · rw [← hsnd, closed_commit]
      · split at hsnd
        · rw [← hsnd, closed_commit]; rfl
        · rw [← hsnd]
    unfold check at hcheck ⊢
    rw [hclosed]
    exact hcheck

theorem check_of_insertOne {d : Document} (h : s.insertOne name d = (.ok (), s')) :
    s'.check name = .ok () := check_of_mutate h

theorem check_of_insertMany {ds : List Document} (hds : ds ≠ []) {n : Nat}
    (h : s.insertMany name ds = (.ok n, s')) : s'.check name = .ok () := by
  rw [insertMany, if_neg (by simpa using hds)] at h
  exact check_of_mutate h

theorem check_of_updateFirst {f : Filter} {u : Update} {result : UpdateResult}
    (h : s.updateFirst name f u = (.ok result, s')) : s'.check name = .ok () := by
  unfold updateFirst at h
  split at h
  · cases h
  · exact check_of_mutate h

end Store

/-! ## Reading a step -/

/-- The records of the matching documents, if all of them can be read. -/
theorem run_records {c : StepCatalogue} {s : Store} (hcheck : s.check c.collection = .ok ())
    {f : Filter} {rs : List StepRecord}
    (hread : ((s.view c.collection).find f).mapM StepRecord.ofDocument = .ok rs) :
    (c.records f).run Store.answer s = (.returned rs, s) := by
  have hanswer : Store.answer s (.find c.collection f) = (.ok ((s.view c.collection).find f), s) :=
    Store.find_of_check hcheck f
  show (Program.bind (Program.request (.find c.collection f)) _).run Store.answer s = _
  rw [Program.run_bind, Program.run_request hanswer]
  show (Program.ofExcept ((List.mapM StepRecord.ofDocument _).mapError .serialization)).run
    Store.answer s = _
  rw [hread]
  rfl

/-- What is read as a step is read under its id, for the run of a job that it is stored under. -/
theorem run_get_of_ofDocument {c : StepCatalogue} {s : Store} (hs : s.WellFormed)
    (hcheck : s.check c.collection = .ok ()) {d : Document} {r : StepRecord}
    (hd : d ∈ (s.view c.collection).documents) (hread : StepRecord.ofDocument d = .ok r)
    {job : JobExecution} (hjob : job.id = r.job.id) :
    (c.get job r.id).run Store.answer s = (.returned (r.toExecution job), s) := by
  obtain ⟨i, hi⟩ := List.getElem?_of_mem hd
  obtain ⟨hid, -, hparent, -⟩ := StepRecord.get?_of_ofDocument hread
  have hsel : ((Filter.byId (.ofInt64 r.id)).and StepRecord.parentField
      (.ofInt64 job.id)).selects d = true := by
    rw [hjob]
    exact (Filter.selects_byId_and_iff (Json.exact_ofInt64 _) (Json.exact_ofInt64 _)).2
      ⟨hid, hparent⟩
  have hfirst := (Collection.first?_eq_some_iff (hs c.collection).1 (Filter.idValue?_byId_and _ _ _)
    (Json.exact_ofInt64 _)).2 ⟨hi, hsel⟩
  have hfind := Collection.find_of_pinned (hs c.collection).1 (Filter.idValue?_byId_and _ _ _)
    (Json.exact_ofInt64 _) (f := (Filter.byId (.ofInt64 r.id)).and StepRecord.parentField
      (.ofInt64 job.id))
  rw [hfirst] at hfind
  have hfound : ((s.view c.collection).find ((Filter.byId (.ofInt64 r.id)).and
      StepRecord.parentField (.ofInt64 job.id))).mapM StepRecord.ofDocument = .ok [r] := by
    rw [hfind]
    exact Except.mapM_eq_ok.2 (congrArg (fun result => [result]) hread)
  show (Program.bind (c.records _) _).run Store.answer s = _
  rw [Program.run_bind, run_records hcheck hfound]
  rfl

/-- The step that is stored under an id is read for the run of a job that it is stored under. -/
theorem run_get {c : StepCatalogue} {s : Store} (hs : s.WellFormed)
    (hcheck : s.check c.collection = .ok ()) {r : StepRecord}
    (hr : r.toDocument ∈ (s.view c.collection).documents) {job : JobExecution}
    (hjob : job.id = r.job.id) :
    (c.get job r.id).run Store.answer s = (.returned (r.toExecution job).carried, s) :=
  run_get_of_ofDocument hs hcheck hr (StepRecord.ofDocument_toDocument r) hjob

/-- No step is found if none is stored under the id and for the run of a job. -/
theorem run_get_missing {c : StepCatalogue} {s : Store} (hcheck : s.check c.collection = .ok ())
    {job : JobExecution} {id : Int64} (hnone : ∀ d ∈ (s.view c.collection).documents,
      d.get? idField = some (Json.ofInt64 id).value →
        d.get? StepRecord.parentField ≠ some (Json.ofInt64 job.id).value) :
    (c.get job id).run Store.answer s =
      (.failed (.notFound (.stepOfJob id.toInt job.id.toInt)), s) := by
  have hfind : (s.view c.collection).find ((Filter.byId (.ofInt64 id)).and StepRecord.parentField
      (.ofInt64 job.id)) = [] := by
    refine List.filter_eq_nil_iff.2 fun d hd hsel => ?_
    obtain ⟨hid, hparent⟩ := (Filter.selects_byId_and_iff (Json.exact_ofInt64 _)
      (Json.exact_ofInt64 _)).1 hsel
    exact hnone d hd hid hparent
  show (Program.bind (c.records _) _).run Store.answer s = _
  rw [Program.run_bind, run_records hcheck
    ((congrArg (List.mapM StepRecord.ofDocument) hfind).trans (StepRecord.mapM_ofDocument []))]
  rfl

/-- The step that is stored under an id is not found for the run of another job. -/
theorem run_get_elsewhere {c : StepCatalogue} {s : Store} (hs : s.WellFormed)
    (hcheck : s.check c.collection = .ok ()) {r : StepRecord}
    (hr : r.toDocument ∈ (s.view c.collection).documents) {job : JobExecution}
    (hjob : job.id ≠ r.job.id) : (c.get job r.id).run Store.answer s =
      (.failed (.notFound (.stepOfJob r.id.toInt job.id.toInt)), s) := by
  obtain ⟨i, hi⟩ := List.getElem?_of_mem hr
  refine run_get_missing hcheck fun d hd hid hparent => hjob ?_
  obtain ⟨j, hj⟩ := List.getElem?_of_mem hd
  -- what has the id is the step itself, and that has another parent
  have hkey : r.toDocument.key? = d.key? :=
    congrArg (Option.map Document.keyText) ((Store.get?_id_toDocument r).trans hid.symm)
  have hplace : i = j := (hs c.collection).1.index_eq hi hj hkey
  rw [← hplace, hi] at hj
  rw [← Option.some.inj hj] at hparent
  exact (Store.get?_parent_toDocument_iff.1 hparent).symm

/-! ## Writing a step -/

namespace Operation

variable {site : Site} {client : Client} {s s' : Store} {e : StepExecution}

/-- A record is identified by an allocation. -/
theorem identify_returned {new : StepExecution × Document}
    (h : ((site.catalogue client).identify e).run Store.answer s = (.returned new, s')) :
    ∃ id r, StepCatalogue.checkNew e = .ok () ∧
      ((site.allocator client).next site.sequence).run Store.answer s = (.returned id, s') ∧
      StepRecord.ofExecution (e.identified id 0) client.cap = .ok r ∧
      new = (e.identified id 0, r.toDocument) := by
  obtain ⟨_, hnew, h⟩ := Program.ofExcept_bind_returned h
  obtain ⟨id, _, hnext, h⟩ := Program.bind_returned h
  obtain ⟨r, hr, h⟩ := Program.ofExcept_bind_returned h
  cases h
  exact ⟨id, r, hnew, hnext, hr, rfl⟩

/-- An execution that is saved has been inserted under an id that was allocated. -/
theorem save_returned {saved : StepExecution}
    (h : ((site.catalogue client).save e).run Store.answer s = (.returned saved, s')) :
    ∃ id between r, ((site.allocator client).next site.sequence).run Store.answer s =
        (.returned id, between) ∧ saved = e.identified id 0 ∧
      StepRecord.ofExecution (e.identified id 0) client.cap = .ok r ∧
      between.insertOne site.steps r.toDocument = (.ok (), s') := by
  obtain ⟨⟨_, _⟩, _, hidentify, h⟩ := Program.bind_returned h
  obtain ⟨_, _, hinsert, h⟩ := Program.bind_returned h
  cases h
  obtain ⟨id, r, -, hnext, hr, hnew⟩ := identify_returned hidentify
  cases hnew
  exact ⟨id, _, r, hnext, rfl, hr, Program.request_returned hinsert⟩

/-- An execution that is updated has been written over its version. -/
theorem update_returned {updated : StepExecution}
    (h : ((site.catalogue client).update e).run Store.answer s = (.returned updated, s')) :
    ∃ id version next r result, e.id = some id ∧ e.version = some version ∧
      StepCatalogue.nextVersion id version = .ok next ∧ updated = e.identified id next ∧
      StepRecord.ofExecution (e.identified id next) client.cap = .ok r ∧
      UpdateResult.matched result ≠ 0 ∧
      s.updateFirst site.steps ((Filter.byId (.ofInt64 id)).and StepRecord.versionField
        (.ofInt32 version)) r.update = (.ok result, s') := by
  obtain ⟨_, -, h⟩ := Program.ofExcept_bind_returned h
  obtain ⟨id, hid, h⟩ := Program.ofExcept_bind_returned h
  obtain ⟨version, hversion, h⟩ := Program.ofExcept_bind_returned h
  obtain ⟨next, hnext, h⟩ := Program.ofExcept_bind_returned h
  obtain ⟨r, hr, h⟩ := Program.ofExcept_bind_returned h
  obtain ⟨result, _, hupdate, h⟩ := Program.bind_returned h
  rw [StepRecord.need_eq_ok] at hid hversion
  by_cases hmatched : UpdateResult.matched result = 0
  · rw [if_pos hmatched] at h
    exact ((Operation.asks_diagnose (P := fun _ => True) (fun _ => trivial) id version).returned h).elim
  · rw [if_neg hmatched] at h
    have hanswer := Program.request_returned hupdate
    cases h
    exact ⟨id, version, next, r, result, hid, hversion, hnext, rfl, hr, hmatched, hanswer⟩

end Operation

/-! ## Reading what was written -/

/-- A save that succeeds at one store is read after it. -/
theorem get_after_save {site : Site} {client reader : Client} {s s' : Store} (hs : s.WellFormed)
    {id : Int64} {e : StepExecution} {r : StepRecord}
    (hr : StepRecord.ofExecution (e.identified id 0) client.cap = .ok r)
    (hinsert : s.insertOne site.steps r.toDocument = (.ok (), s')) :
    ((site.catalogue reader).get e.job id).run Store.answer s' =
      (.returned ((e.carried.identified id 0).cut client.cap), s') := by
  have hs' := hs.of_answer (.insertOne _ _) hinsert
  obtain ⟨hjob, hexecution⟩ := StepRecord.ofExecution_eq_ok hr
  have hid : r.id = id := Option.some.inj (congrArg StepExecution.id hexecution)
  have hmem : r.toDocument ∈ (s'.view site.steps).documents := by
    rw [(Store.insertOne_ok hs hinsert).documents]
    exact List.mem_append_right _ List.mem_cons_self
  have hget := run_get (c := site.catalogue reader) hs' (Store.check_of_insertOne hinsert) hmem
    (show e.job.id = r.job.id by rw [hjob]; rfl)
  rwa [hid, show r.toExecution e.job = _ from hexecution] at hget

/-- An update that succeeds has found the step at the version that was passed, and what it wrote
over it is read after it. -/
theorem get_after_update {site : Site} {client : Client} {s s' : Store}
    (hs : s.WellFormed) (hsteps : s.HoldsSteps site.steps) {id : Int64} {version next : Int32}
    {e : StepExecution} {r : StepRecord} {result : UpdateResult}
    (hnext : StepCatalogue.nextVersion id version = .ok next)
    (hr : StepRecord.ofExecution (e.identified id next) client.cap = .ok r)
    (hmatched : result.matched ≠ 0)
    (hupdate : s.updateFirst site.steps ((Filter.byId (.ofInt64 id)).and StepRecord.versionField
      (.ofInt32 version)) r.update = (.ok result, s')) :
    ∃ (i : Nat) (before : StepRecord),
      (s.view site.steps).documents[i]? = some before.toDocument ∧ before.id = id ∧
      before.version = version ∧ s.Becomes s' site.steps
        ((s.view site.steps).documents.set i (r.laidOver before).toDocument) ∧
      ∀ reader job, job.id = before.job.id →
        ((site.catalogue reader).get job id).run Store.answer s' =
          (.returned { (e.carried.identified id next).cut client.cap with
            name := some before.name
            job := job }, s') := by
  have hs' := hs.of_answer (.updateFirst _ _ _) hupdate
  obtain ⟨-, hexecution⟩ := StepRecord.ofExecution_eq_ok hr
  have hne := Operation.version_ne_of_nextVersion hnext hr
  obtain ⟨hnone, -⟩ | ⟨i, before, hi, hid, hbefore, -, hbecomes⟩ :=
    Store.updateFirst_step hs hsteps hne hupdate
  · exact absurd hnone hmatched
  · refine ⟨i, before, hi, hid, hbefore, hbecomes, fun reader job hjob => ?_⟩
    have hmem : (r.laidOver before).toDocument ∈ (s'.view site.steps).documents := by
      rw [hbecomes.documents]
      exact List.mem_set (List.getElem?_eq_some_iff.1 hi).1 _
    have hget := run_get (c := site.catalogue reader) hs' (Store.check_of_updateFirst hupdate) hmem
      hjob
    rw [StepRecord.toExecution_laidOver r before job e.job,
      show r.toExecution e.job = _ from hexecution, show (r.laidOver before).id = id from hid, hid]
      at hget
    exact hget

/-- Steps and counters in two collections. -/
def Site.desk : Site := ⟨"steps", "counters", "step"⟩

/-- A client that stores three characters of an exit description. -/
def Client.clerk : Client := ⟨.compareAndSwap, 1, 3⟩

/-- An execution with a longer exit description. -/
def StepExecution.opening : StepExecution where
  id := none
  version := none
  name := "open"
  job := ⟨7, 3⟩
  startTime := some ⟨⟨2024, 2, 29, by decide, by decide, by decide⟩, 0, 0, by decide, by decide⟩
  endTime := none
  status := some .started
  exit := ⟨"EXECUTING", "under way"⟩
  counters := .zero
  lastUpdated := none

/-- The store in which a counter has been seeded and an execution saved. -/
def Store.opened : Store :=
  ((World.ofStore .inMemory).run Site.desk.program
    [.start (.clerk, .seed "step" 0 ""), .ask 0, .start (.clerk, .save .opening), .ask 1, .ask 1,
      .ask 1]).store

theorem Store.leads_opened : Site.desk.Leads .opened := by
  refine ⟨.inMemory, _, .inMemory, ?_, rfl⟩
  rintro d ⟨⟩

end StepLedger

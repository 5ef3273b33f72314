import StepLedger.Proofs.Repository.FirstSave
import StepLedger.Proofs.Sequence.Returning
import StepLedger.Proofs.Store.Failure
import StepLedger.Proofs.Store.Locality

/-!
# Saving many steps at once

To save a batch allocates all ids first and then inserts all records by one request; to save the records
one after the other allocates and inserts in turn. Meanwhile the second store is ahead of the first by
the records that it has inserted (`Store.Ahead`), and as the counters do not see the steps, both hand
out the same ids (`Ahead.next`). So what can be saved as a batch can be saved record by record, and the
stores hold the same afterwards (`Operation.run_saveEach`).

How a batch ends is said once, as `Operation.BatchEnd`: one that fails has stored nothing, unless it
stopped midway in the bulk insert, and then the records before the one at fault are stored
(`Operation.run_saveAll`). From it follows what a repository makes of a batch
(`Repository.saveAll_like_saveEach`). That the batch succeeds where its records can be saved one after
the other is not said.
-/

namespace StepLedger

open Sequence

/-- Store new step executions one after the other. -/
def StepCatalogue.saveEach (c : StepCatalogue) :
    List StepExecution → Program (List StepExecution)
  | [] => return []
  | e :: es => do
    let saved ← c.save e
    let rest ← c.saveEach es
    return saved :: rest

/-! ## Consecutive ids -/

/-- The executions `saved` are the `es` at version 0 and under consecutive ids from the first on. -/
structure Numbered (first : Int) (es saved : List StepExecution) : Prop where
  length : saved.length = es.length
  identified : ∀ (i : Nat) e, es[i]? = some e →
    ∃ id : Int64, id.toInt = first + i ∧ saved[i]? = some (e.identified id 0)

namespace Numbered

variable {e : StepExecution} {es saved : List StepExecution}

theorem nil (first : Int) : Numbered first [] [] := ⟨rfl, fun _ _ h => nomatch h⟩

theorem cons {id : Int64} (h : Numbered (id.toInt + 1) es saved) :
    Numbered id.toInt (e :: es) (e.identified id 0 :: saved) where
  length := congrArg (· + 1) h.length
  identified := by
    rintro (_ | i) e' he
    · cases he
      exact ⟨id, (Int.add_zero _).symm, rfl⟩
    · obtain ⟨id', hid', hsaved⟩ := h.identified i e' he
      exact ⟨id', by rw [hid']; push_cast; omega, hsaved⟩

end Numbered

/-- The executions `saved` are the `es` under the ids that come next, from the successor of the last
value of the counter on if there is one. -/
structure Store.NumbersOn (s : Store) (site : Site) (es saved : List StepExecution) : Prop where
  consecutive : ∃ first, Numbered first es saved
  next : ∀ v, s.lastValue? site.counters site.sequence = some v → Numbered (v.toInt + 1) es saved

namespace Operation

variable {site : Site} {client : Client} {s t s' : Store} {e : StepExecution}
  {es saved : List StepExecution} {ds : List Document}

/-! ## Identifying a batch -/

/-- An allocation of the id of a step only asks about the counters. -/
theorem within_next : ((site.allocator client).next site.sequence).Asks
    (Request.Within site.counters) fun _ => True :=
  asks_next ⟨rfl, nofun⟩ (fun _ _ => ⟨rfl, nofun⟩) ⟨rfl, nofun⟩

/-- The first record of a batch is identified, and then the others. -/
theorem identifyAll_returned {new : List StepExecution × List Document}
    (h : ((site.catalogue client).identifyAll (e :: es)).run Store.answer s = (.returned new, s')) :
    ∃ id r between saved ds, StepCatalogue.checkNew e = .ok () ∧
      ((site.allocator client).next site.sequence).run Store.answer s = (.returned id, between) ∧
      StepRecord.ofExecution (e.identified id 0) client.cap = .ok r ∧
      ((site.catalogue client).identifyAll es).run Store.answer between =
        (.returned (saved, ds), s') ∧
      new = (e.identified id 0 :: saved, r.toDocument :: ds) := by
  obtain ⟨_, between, hidentify, h⟩ := Program.bind_returned h
  obtain ⟨⟨saved, ds⟩, _, hrest, h⟩ := Program.bind_returned h
  obtain ⟨id, r, hnew, hnext, hr, rfl⟩ := identify_returned hidentify
  cases h
  exact ⟨id, r, between, saved, ds, hnew, hnext, hr, hrest, rfl⟩

/-- The ids of a batch follow the last value of the counter, if there is one, and each other. -/
theorem numbers_of_identifyAll (hs : s.WellFormed)
    (h : ((site.catalogue client).identifyAll es).run Store.answer s =
      (.returned (saved, ds), s')) : s.NumbersOn site es saved := by
  induction es generalizing s saved ds with
  | nil =>
    cases h
    exact ⟨⟨0, .nil 0⟩, fun v _ => .nil _⟩
  | cons e es ih =>
    obtain ⟨id, r, between, rest, ds', -, hnext, -, hrest, heq⟩ := identifyAll_returned h
    cases heq
    obtain ⟨hadvances, hsuccessor⟩ := Allocator.next_returned hs hnext
    have hnumbered : Numbered id.toInt (e :: es) (e.identified id 0 :: rest) :=
      .cons ((ih (hs.of_run hnext) hrest).next id hadvances.value)
    refine ⟨⟨_, hnumbered⟩, fun v hv => ?_⟩
    have hid : id.toInt = v.toInt + 1 := Update.addChecked_eq_some_iff.1 (hsuccessor v hv)
    rwa [hid] at hnumbered

end Operation

/-! ## A store that is ahead of another -/

/-- The second store is the first with some documents behind the steps. It serves the steps, and both
serve the counters. -/
structure Store.Ahead (site : Site) (s t : Store) (ds : List Document) : Prop where
  counters : s.Share t site.counters
  serves : t.Serves site.steps
  documents : (t.view site.steps).documents = (s.view site.steps).documents ++ ds
  others : ∀ name, name ≠ site.steps → t.view name = s.view name

namespace Store.Ahead

variable {site : Site} {client : Client} {s t s' : Store} {ds : List Document}

theorem refl (hs : s.WellFormed) (hcounters : s.Serves site.counters) (hsteps : s.Serves site.steps) :
    s.Ahead site s [] where
  counters := .refl hs hcounters
  serves := hsteps
  documents := (List.append_nil _).symm
  others := fun _ _ => rfl

variable (h : s.Ahead site t ds) (hapart : site.steps ≠ site.counters)
include h hapart

/-- The same id is handed out, and the one store stays ahead of the other. -/
theorem next {id : Int64} (hnext : ((site.allocator client).next site.sequence).run Store.answer s =
      (.returned id, s')) :
    ∃ t', ((site.allocator client).next site.sequence).run Store.answer t = (.returned id, t') ∧
      s'.Ahead site t' ds := by
  have hwithin : ((site.allocator client).next site.sequence).Asks (Request.Within site.counters)
    fun _ => True := Operation.within_next
  obtain ⟨hs, ht⟩ := h.counters.wellFormed
  obtain ⟨houtcome, hshare⟩ := h.counters.run hwithin
  cases hnext' : ((site.allocator client).next site.sequence).run Store.answer t with
  | mk outcome t' =>
    rw [hnext, hnext'] at houtcome hshare
    cases houtcome
    refine ⟨t', rfl, hshare, h.serves.of_run ht hwithin hnext', ?_, fun name hne => ?_⟩
    · rw [view_run_ne ht hwithin hnext' hapart, view_run_ne hs hwithin hnext hapart, h.documents]
    · by_cases hname : name = site.counters
      · rw [hname]
        exact hshare.view
      · rw [view_run_ne ht hwithin hnext' hname, view_run_ne hs hwithin hnext hname, h.others name hne]

/-- A record under a new id can be inserted, and the second store is ahead by it as well. -/
theorem insertOne {r : StepRecord} (hnew : r.key ∉ (t.view site.steps).keys) :
    ∃ t', t.insertOne site.steps r.toDocument = (.ok (), t') ∧
      s.Ahead site t' (ds ++ [r.toDocument]) := by
  have ht := h.counters.wellFormed.2
  obtain ⟨t', hinsert⟩ := h.serves.insertOne ht (Collection.insert_of_key r.key?_toDocument hnew)
  have hbecomes := insertOne_ok ht hinsert
  have hanswer : t.answer (.insertOne site.steps r.toDocument) = (.ok (), t') := hinsert
  have hplain : ∀ other, Request.insertOne site.steps r.toDocument ≠ .dropCollection other := nofun
  have hserves : ∀ {name}, t.Serves name → t'.Serves name := fun hname => by
    have hafter := hname.answer ht hplain
    rwa [hanswer] at hafter
  have hkept := isSome_archive_answer ht hplain
  rw [hanswer] at hkept
  refine ⟨t', hinsert, ⟨⟨h.counters.wellFormed.1, ht.of_answer _ hanswer⟩,
    ⟨h.counters.serves.1, hserves h.counters.serves.2⟩, ?_, hkept.trans h.counters.kept⟩,
    hserves h.serves, ?_, ?_⟩
  · rw [hbecomes.others _ hapart.symm, h.counters.view]
  · rw [hbecomes.documents, h.documents, List.append_assoc]
  · exact fun name hne => (hbecomes.others name hne).trans (h.others name hne)

end Store.Ahead

namespace Operation

variable {site : Site} {client : Client} {s t between s' : Store} {es saved : List StepExecution}
  {rs : List StepRecord} {ds before : List Document}

/-! ## Saving record by record -/

/-- A key that is not repeated is not that of an earlier document. -/
theorem key_notMem {c : Collection} (hc : c.WellFormed) {r : StepRecord} {rest : List Document}
    (hn : ((c.documents ++ r.toDocument :: rest).map Document.key?).Nodup) : r.key ∉ c.keys := by
  intro hkey
  rw [List.map_append, hc.keys, List.nodup_append] at hn
  exact hn.2.2 (some r.key) (List.mem_map_of_mem hkey) _
    (List.mem_map_of_mem List.mem_cons_self) r.key?_toDocument.symm

/-- Where the first store identifies records under new ids, the second one saves them. -/
theorem run_saveEach (hapart : site.steps ≠ site.counters) (h : s.Ahead site t before)
    (hidentify : ((site.catalogue client).identifyAll es).run Store.answer s =
      (.returned (saved, ds), s'))
    (hn : (((s.view site.steps).documents ++ before ++ ds).map Document.key?).Nodup) :
    ∃ t', ((site.catalogue client).saveEach es).run Store.answer t = (.returned saved, t') ∧
      s'.Ahead site t' (before ++ ds) := by
  induction es generalizing s t before saved ds with
  | nil =>
    cases hidentify
    exact ⟨t, rfl, (List.append_nil before).symm ▸ h⟩
  | cons e es ih =>
    obtain ⟨id, r, between, rest, ds', hnew, hnext, hr, hrest, heq⟩ := identifyAll_returned hidentify
    cases heq
    obtain ⟨t₁, hnext', hahead⟩ := h.next hapart hnext
    have hsteps := Store.view_run_ne h.counters.wellFormed.1 within_next hnext hapart
    have hkey : r.key ∉ (t₁.view site.steps).keys := by
      rw [← hsteps, ← hahead.documents] at hn
      exact key_notMem (hahead.counters.wellFormed.2 site.steps).1 hn
    obtain ⟨t₂, hinsert, hahead⟩ := hahead.insertOne hapart hkey
    obtain ⟨t', hsaved, hahead⟩ := ih hahead hrest (by
      rwa [hsteps, ← List.append_assoc, List.append_assoc _ [r.toDocument], List.singleton_append])
    have hsave := run_save_ok hnew hnext' hr hinsert
    refine ⟨t', ?_, by rwa [List.append_assoc, List.singleton_append] at hahead⟩
    refine (Program.run_bind _ _ _ _).trans ?_
    rw [hsave]
    refine (Program.run_bind _ _ _ _).trans ?_
    rw [hsaved]
    rfl

/-! ## A batch that fails -/

/-- On its own account the program does not fail midway in a bulk insert. -/
abbrev FailsWhole {α : Type} (s : Store) (program : Program α) : Prop :=
  Program.Fulfils (fun _ _ => True) (fun _ _ => True) (fun _ e => e.kind ≠ .bulkWrite) s program

theorem failsWhole_argument {α : Type} {result : Except StoreError α}
    (h : ∀ e, result = .error e → e.kind = .invalidArgument) :
    FailsWhole s (Program.ofExcept result) :=
  Program.fulfils_ofExcept (fun _ _ => trivial) fun e herror => by simp [h e herror]

theorem failsWhole_ofFound {collection name : String} (found : Option Document) :
    FailsWhole s (Program.ofExcept (Counter.ofFound collection name found)) := by
  refine Program.fulfils_ofExcept (fun _ _ => trivial) fun e herror => ?_
  cases found with
  | none =>
    cases herror
    simp [missing, StoreError.kind]
  | some d =>
    cases hd : Counter.decode d with
    | ok c =>
      rw [Allocator.ofFound_eq_ok hd] at herror
      cases herror
    | error cause =>
      rw [Counter.ofFound, hd] at herror
      cases herror
      simp [StoreError.kind]

theorem failsWhole_swap (name : String) (rounds : Nat) :
    FailsWhole s (Allocator.swap site.counters name rounds) := by
  induction rounds generalizing s with
  | zero => trivial
  | succ rounds ih =>
    rw [Allocator.swap_succ_eq]
    intro _ found s _ _
    refine Program.fulfils_bind (failsWhole_ofFound _) fun s counter _ => ?_
    refine Program.fulfils_bind
      (failsWhole_argument fun _ => Allocator.kind_of_successor) fun s next _ => ?_
    intro _ result s _ _
    show Program.Fulfils _ _ _ _ (if UpdateResult.matched result = 1 then _ else _)
    split
    · trivial
    · exact ih

theorem failsWhole_next :
    FailsWhole s ((site.allocator client).next site.sequence) := by
  rw [Site.allocator, Allocator.next]
  refine Program.fulfils_bind (failsWhole_argument fun _ => kind_of_checkName) fun s _ _ => ?_
  cases client.strategy with
  | atomicIncrement =>
    refine Program.fulfils_bind (Program.fulfils_request fun _ _ _ _ _ => trivial) fun s found _ => ?_
    exact Program.fulfils_bind (failsWhole_ofFound found) fun _ _ _ => trivial
  | compareAndSwap => exact failsWhole_swap site.sequence client.rounds

theorem failsWhole_identifyAll (es : List StepExecution) :
    FailsWhole s ((site.catalogue client).identifyAll es) := by
  induction es generalizing s with
  | nil => trivial
  | cons e es ih =>
    have hidentify : FailsWhole s ((site.catalogue client).identify e) := by
      refine Program.fulfils_bind
        (failsWhole_argument fun _ => StepCatalogue.kind_of_checkNew) fun s _ _ => ?_
      refine Program.fulfils_bind failsWhole_next fun s id _ => ?_
      exact Program.fulfils_bind
        (failsWhole_argument fun _ => StepRecord.kind_of_ofExecution) fun _ _ _ => trivial
    exact Program.fulfils_bind hidentify fun s _ _ => Program.fulfils_bind ih fun _ _ _ => trivial

/-- To identify a batch fails as a whole. -/
theorem kind_of_identifyAll (hs : s.WellFormed) {error : StoreError}
    (h : ((site.catalogue client).identifyAll es).run Store.answer s = (.failed error, s')) :
    error.kind ≠ .bulkWrite := by
  have hasks : ((site.catalogue client).identifyAll es).Asks
      (fun request => ∀ name ds, request ≠ .insertMany name ds) _ :=
    asks_identifyAll (asks_next nofun (fun _ _ => nofun) nofun) es
  obtain hkind | ⟨request, between, hrequest, hbetween, hanswer⟩ :=
    (failsWhole_identifyAll es).failed (fun _ => trivial) hasks hs h
  · exact hkind
  · exact Store.kind_ne_bulkWrite hbetween hrequest hanswer

/-! ## How a batch ends -/

/-- The executions are identified as `saved`, with the records `rs`, and the steps are as before. -/
structure Identified (site : Site) (client : Client) (es : List StepExecution) (s : Store)
    (saved : List StepExecution) (rs : List StepRecord) (between : Store) : Prop where
  run : ((site.catalogue client).identifyAll es).run Store.answer s =
    (.returned (saved, rs.map StepRecord.toDocument), between)
  length : rs.length = es.length
  records : List.Forall₂ (fun e r => StepRecord.ofExecution e client.cap = .ok r) saved rs
  steps : between.view site.steps = s.view site.steps

/-- How a batch ends: it fails as a whole and the steps are as they were, or its records are
identified, and inserted all of them or only those before the one at fault. -/
inductive BatchEnd (site : Site) (client : Client) (es : List StepExecution) (s : Store) :
    Program.Outcome (List StepExecution) → Store → Prop
  | whole {outcome : Program.Outcome (List StepExecution)} {s' : Store}
    (unsaved : ∀ saved, outcome ≠ .returned saved)
    (entire : ∀ k source, outcome ≠ .failed (.bulkWrite k source))
    (steps : s'.view site.steps = s.view site.steps) : BatchEnd site client es s outcome s'
  | saved {saved : List StepExecution} {rs : List StepRecord} {between s' : Store} {n : Nat}
    (identified : Identified site client es s saved rs between)
    (inserted : between.insertMany site.steps (rs.map StepRecord.toDocument) = (.ok n, s'))
    (becomes : between.Becomes s' site.steps
      ((s.view site.steps).documents ++ rs.map StepRecord.toDocument)) :
    BatchEnd site client es s (.returned saved) s'
  | midway {saved : List StepExecution} {rs : List StepRecord} {between s' : Store} {k : Nat}
    {source : StoreError} (identified : Identified site client es s saved rs between)
    (lt : k < es.length) (becomes : between.Becomes s' site.steps
      ((s.view site.steps).documents ++ (rs.take k).map StepRecord.toDocument)) :
    BatchEnd site client es s (.failed (.bulkWrite k source)) s'

theorem Identified.documents_ne_nil (h : Identified site client es s saved rs between)
    (hes : es ≠ []) : rs.map StepRecord.toDocument ≠ [] := by
  intro hnil
  have hlength := h.length
  rw [List.map_eq_nil_iff.1 hnil, List.length_nil] at hlength
  exact hes (List.length_eq_zero_iff.1 hlength.symm)

/-- A batch whose records are identified ends as the bulk insert does. -/
theorem Identified.batchEnd (h : Identified site client es s saved rs between) (hs : s.WellFormed)
    (hes : es ≠ []) {outcome : Program.Outcome (List StepExecution)}
    (hrun : (Program.bind (.request (.insertMany site.steps (rs.map StepRecord.toDocument)))
      fun _ => .done saved).run Store.answer between = (outcome, s')) :
    BatchEnd site client es s outcome s' := by
  have hbetween := hs.of_run h.run
  cases hinsert : between.insertMany site.steps (rs.map StepRecord.toDocument) with
  | mk result after =>
    have hanswer : between.answer (.insertMany site.steps (rs.map StepRecord.toDocument)) =
        (result, after) := hinsert
    cases result with
    | ok n =>
      cases (Program.run_ask_ok hanswer).symm.trans hrun
      have hbecomes := Store.insertMany_ok hbetween (h.documents_ne_nil hes) hinsert
      exact .saved h hinsert (h.steps ▸ hbecomes)
    | error e =>
      cases (Program.run_ask_error hanswer).symm.trans hrun
      obtain ⟨halike, hkind⟩ | ⟨k, source, rfl, hk, hbecomes⟩ :=
        Store.insertMany_error hbetween hinsert
      · refine .whole nofun (fun k source heq => ?_) ((halike _).trans h.steps)
        cases heq
        exact hkind rfl
      · rw [List.length_map, h.length] at hk
        rw [h.steps, ← List.map_take] at hbecomes
        exact .midway h hk hbecomes

theorem run_saveAll (hapart : site.steps ≠ site.counters) (hs : s.WellFormed) (hes : es ≠ [])
    {outcome : Program.Outcome (List StepExecution)}
    (h : ((site.catalogue client).saveAll (some es)).run Store.answer s = (outcome, s')) :
    BatchEnd site client es s outcome s' := by
  have hrun : ((site.catalogue client).saveAll (some es)).run Store.answer s =
      Program.Outcome.andThen Store.answer (fun new =>
        (Program.request (.insertMany site.steps new.2)).bind fun _ => .done new.1)
        (((site.catalogue client).identifyAll es).run Store.answer s) := by
    cases es with
    | nil => exact absurd rfl hes
    | cons e es => exact Program.run_bind _ _ _ _
  rw [hrun] at h
  have hnext : ((site.allocator client).next site.sequence).Asks (Request.Within site.counters)
    fun _ => True := within_next
  have hasks := asks_identifyAll hnext es
  cases hidentify : ((site.catalogue client).identifyAll es).run Store.answer s with
  | mk result between =>
    have hsteps := Store.view_run_ne hs hasks hidentify hapart
    rw [hidentify] at h
    cases result with
    | failed error =>
      cases h
      refine .whole nofun (fun k source heq => ?_) hsteps
      cases heq
      exact kind_of_identifyAll hs hidentify rfl
    | stalled =>
      cases h
      exact .whole nofun nofun hsteps
    | returned new =>
      obtain ⟨hsaved, rs, hrs, hdocuments⟩ := hasks.returned hidentify
      obtain ⟨saved, ds⟩ := new
      subst hdocuments
      have hlength : rs.length = es.length := by rw [← hrs.length_eq, ← hsaved.length_eq]
      exact Identified.batchEnd ⟨hidentify, hlength, hrs, hsteps⟩ hs hes h

/-- What has been saved as a batch can be saved record by record, and the same is stored. -/
theorem saveEach_of_saveAll (hapart : site.steps ≠ site.counters) (hs : s.WellFormed) (hes : es ≠ [])
    (hwrites : ∀ archive, s.archive = some archive →
      archive.Ready site.steps ∧ archive.Ready site.counters ∧ archive.disk.refused = none)
    {n : Nat} (hidentified : Identified site client es s saved rs between)
    (hinsert : between.insertMany site.steps (rs.map StepRecord.toDocument) = (.ok n, s'))
    (hbecomes : between.Becomes s' site.steps
      ((s.view site.steps).documents ++ rs.map StepRecord.toDocument)) :
    ∃ t', ((site.catalogue client).saveEach es).run Store.answer s = (.returned saved, t') ∧
      ∀ name, (t'.view name).documents = (s'.view name).documents := by
  have hcounters : s.check site.counters = .ok () := by
    obtain ⟨e, rest, rfl⟩ := List.exists_cons_of_ne_nil hes
    obtain ⟨id, r, after, _, _, -, hnext, -⟩ := identifyAll_returned hidentified.run
    exact (Allocator.check_of_next hnext :)
  have hadmitted := (Store.check_eq_ok.1
    (Store.check_of_insertMany (hidentified.documents_ne_nil hes) hinsert)).2
  have hopen := (Store.check_eq_ok.1 hcounters).1
  have hahead : s.Ahead site s [] := .refl hs
    ⟨hcounters, fun a ha => (hwrites a ha).2.1, fun a ha => (hwrites a ha).2.2⟩
    ⟨Store.check_eq_ok.2 ⟨hopen, hadmitted⟩, fun a ha => (hwrites a ha).1,
      fun a ha => (hwrites a ha).2.2⟩
  have hs' : s'.WellFormed :=
    (hs.of_run hidentified.run).of_answer (.insertMany site.steps _) hinsert
  have hn : (((s.view site.steps).documents ++ [] ++
      rs.map StepRecord.toDocument).map Document.key?).Nodup := by
    rw [List.append_nil, ← hbecomes.documents]
    exact (hs' site.steps).1.nodup_documents
  obtain ⟨t', hrun, hafter⟩ := run_saveEach hapart hahead hidentified.run hn
  refine ⟨t', hrun, fun name => ?_⟩
  by_cases hname : name = site.steps
  · rw [hname, hafter.documents, hbecomes.documents, hidentified.steps, List.nil_append]
  · rw [hafter.others name hname, hbecomes.others name hname]

end Operation

/-! ## Batches of a repository -/

namespace Repository

/-- The files of the steps and of the counters can be written, if there are any. -/
def Writes (r : Repository) : Prop :=
  ∀ archive, r.store.archive = some archive → archive.Ready r.config.stepCollection ∧
    archive.Ready r.config.sequenceCollection ∧ archive.disk.refused = none

/-- To save a batch is to save its records one after the other. If it succeeds, its records are stored
behind the others under the ids that come next, at version 0; where the files can be written, to save
record by record succeeds as well, answers the same and leaves the same documents in all collections.
If the bulk insert stops midway, exactly the records before the one at fault are stored, under the ids
that they were given. If it fails otherwise, the steps are as they were. An empty batch does nothing. -/
theorem saveAll_like_saveEach {r r' : Repository} (hvalid : r.config.validate = .ok ())
    (hr : r.store.Reachable) {rounds : Nat} {es : List StepExecution}
    {outcome : Program.Outcome (List StepExecution)}
    (h : r.run ((r.config.steps rounds).saveAll (some es)) = (outcome, r')) :
    (es = [] → outcome = .returned [] ∧ r' = r) ∧
    (∀ saved, outcome = .returned saved →
      r.store.NumbersOn r.config.site es saved ∧
      (∃ records, List.Forall₂ (fun e record =>
          StepRecord.ofExecution e r.config.descriptionCap = .ok record) saved records ∧
        (r'.store.view r.config.stepCollection).documents =
          (r.store.view r.config.stepCollection).documents ++ records.map StepRecord.toDocument) ∧
      (r.Writes → ∃ r'', r.run ((r.config.steps rounds).saveEach es) = (.returned saved, r'') ∧
        ∀ name, (r''.store.view name).documents = (r'.store.view name).documents)) ∧
    (∀ k source, outcome = .failed (.bulkWrite k source) → k < es.length ∧
      ∃ saved records, r.store.NumbersOn r.config.site es saved ∧
        List.Forall₂ (fun e record =>
          StepRecord.ofExecution e r.config.descriptionCap = .ok record) saved records ∧
        (r'.store.view r.config.stepCollection).documents =
          (r.store.view r.config.stepCollection).documents ++
            (records.take k).map StepRecord.toDocument) ∧
    ((∀ saved, outcome ≠ .returned saved) → (∀ k source, outcome ≠ .failed (.bulkWrite k source)) →
      (r'.store.view r.config.stepCollection).documents =
        (r.store.view r.config.stepCollection).documents) := by
  have hs := hr.wellFormed
  have hapart : r.config.site.steps ≠ r.config.site.counters := (Config.of_validate hvalid).2
  obtain ⟨ended, s', hrun⟩ : ∃ ended s', ((r.config.site.catalogue (r.config.client rounds)).saveAll
      (some es)).run Store.answer r.store = (ended, s') := ⟨_, _, rfl⟩
  cases (run_of_store hrun).symm.trans h
  by_cases hes : es = []
  · subst hes
    cases hrun
    refine ⟨fun _ => ⟨rfl, rfl⟩, ?_, nofun, fun h => absurd rfl (h [])⟩
    rintro _ ⟨⟩
    refine ⟨⟨⟨0, .nil 0⟩, fun v _ => .nil _⟩, ⟨[], .nil, (List.append_nil _).symm⟩, fun _ => ?_⟩
    exact ⟨r, rfl, fun _ => rfl⟩
  refine ⟨fun hnil => absurd hnil hes, ?_⟩
  cases Operation.run_saveAll hapart hs hes hrun with
  | whole unsaved entire steps =>
    exact ⟨fun saved hsaved => absurd hsaved (unsaved saved),
      fun k source hfailed => absurd hfailed (entire k source), fun _ _ => congrArg _ steps⟩
  | @saved saved records _ _ _ identified inserted becomes =>
    have hnumbers := Operation.numbers_of_identifyAll hs identified.run
    refine ⟨?_, nofun, fun h => absurd rfl (h saved)⟩
    rintro _ ⟨⟩
    refine ⟨hnumbers, ⟨records, identified.records, becomes.documents⟩, fun hwrites => ?_⟩
    obtain ⟨t', hsaveEach, halike⟩ :=
      Operation.saveEach_of_saveAll hapart hs hes hwrites identified inserted becomes
    exact ⟨_, run_of_store hsaveEach, halike⟩
  | @midway saved records _ _ k source identified lt becomes =>
    have hnumbers := Operation.numbers_of_identifyAll hs identified.run
    refine ⟨nofun, ?_, fun _ h => absurd rfl (h k source)⟩
    rintro _ _ ⟨⟩
    exact ⟨lt, saved, records, hnumbers, identified.records, becomes.documents⟩

/-- A repository in memory whose counter is at zero. -/
def blank : Repository := ⟨terse, (terse.seedSteps.run Store.answer .inMemory).2⟩

/-- The same with a step under id 2. -/
def obstructed : Repository where
  config := terse
  store := (blank.store.answer (.insertOne terse.stepCollection
    (Document.empty.set idField (.ofInt64 2)))).2

theorem reachable_blank : blank.store.Reachable :=
  (Program.asks_true _).run (motive := Store.Reachable) (fun _ request hs _ => hs.answer request)
    .inMemory

theorem reachable_obstructed : obstructed.store.Reachable :=
  .answer (.insertOne terse.stepCollection (Document.empty.set idField (.ofInt64 2))) reachable_blank

theorem run_of_fst {α : Type} {r : Repository} {program : Program α} {outcome : Program.Outcome α}
    (h : (r.run program).1 = outcome) : r.run program = (outcome, (r.run program).2) :=
  Prod.ext h rfl

/-- A batch of two is saved, or stops at the second where a step has its id. -/
theorem saveAll_like_saveEach_of_terse :
    terse.validate = .ok () ∧ blank.store.Reachable ∧ blank.Writes ∧ obstructed.store.Reachable ∧
      (blank.run ((blank.config.steps 1).saveAll (some [.opening, .opening]))).1 =
        .returned [.identified .opening 1 0, .identified .opening 2 0] ∧
      (∃ r, blank.run ((blank.config.steps 1).saveEach [.opening, .opening]) =
        (.returned [.identified .opening 1 0, .identified .opening 2 0], r)) ∧
      (∃ source, (obstructed.run ((obstructed.config.steps 1).saveAll (some [.opening, .opening]))).1 =
        .failed (.bulkWrite 1 source)) ∧
      ∃ record,
        StepRecord.ofExecution (.identified .opening 1 0) obstructed.config.descriptionCap = .ok record ∧
        ((obstructed.run ((obstructed.config.steps 1).saveAll (some [.opening, .opening]))).2.store.view
          obstructed.config.stepCollection).documents =
            (obstructed.store.view obstructed.config.stepCollection).documents ++
              [record.toDocument] := by
  have hvalid : terse.validate = .ok () := by decide +kernel
  have hvalid' : blank.config.validate = .ok () := hvalid
  have hvalid'' : obstructed.config.validate = .ok () := hvalid
  have hmemory : blank.store.archive = none := rfl
  have hwrites : blank.Writes := fun archive harchive => nomatch hmemory.symm.trans harchive
  have hsaved : (blank.run ((blank.config.steps 1).saveAll (some [.opening, .opening]))).1 =
      .returned [.identified .opening 1 0, .identified .opening 2 0] := by decide +kernel
  have hstopped : (obstructed.run ((obstructed.config.steps 1).saveAll
      (some [.opening, .opening]))).1 = .failed (.bulkWrite 1 (.duplicateKey terse.stepCollection "2")) :=
    by decide +kernel
  obtain ⟨-, hreturned, -⟩ := saveAll_like_saveEach hvalid' reachable_blank (run_of_fst hsaved)
  obtain ⟨-, -, heach⟩ := hreturned _ rfl
  obtain ⟨r, hrun, -⟩ := heach hwrites
  obtain ⟨-, -, hfailed, -⟩ :=
    saveAll_like_saveEach hvalid'' reachable_obstructed (run_of_fst hstopped)
  obtain ⟨-, saved, records, hnumbers, hrecords, hdocuments⟩ := hfailed _ _ rfl
  have hvalue : obstructed.store.lastValue? obstructed.config.site.counters
      obstructed.config.site.sequence = some 0 := by decide +kernel
  obtain ⟨id, hid, hfirst⟩ := (hnumbers.next 0 hvalue).identified 0 .opening rfl
  obtain rfl : id = 1 := Int64.toInt_inj.1 hid
  cases hrecords with
  | nil => cases hfirst
  | cons hrecord =>
    cases hfirst
    exact ⟨hvalid, reachable_blank, hwrites, reachable_obstructed, hsaved, ⟨r, hrun⟩,
      ⟨_, hstopped⟩, _, hrecord, hdocuments⟩

end Repository

end StepLedger

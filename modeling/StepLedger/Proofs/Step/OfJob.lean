import StepLedger.Proofs.Step.Latest

/-!
# The steps of a run of a job

The query for a run of a job looks at the documents with the id of that run, of which operations leave
none that cannot be read (`Site.Registers`). It lists the steps that are stored under the run, each once,
by ascending id. The order is strict because no two documents of a collection have one key, and each
step is what looking it up by its id returns (`found_by_job`).
-/

namespace StepLedger

/-! ## Sorting by id -/

/-- Steps with different ids are sorted strictly. -/
theorem StepRecord.pairwise_id_mergeSort {records : List StepRecord}
    (hids : (records.map StepRecord.id).Nodup) :
    (records.mergeSort fun r s => r.id ≤ s.id).Pairwise fun r s => r.id < s.id := by
  have hsorted : (records.mergeSort fun r s => r.id ≤ s.id).Pairwise fun r s => r.id ≤ s.id := by
    refine (List.pairwise_mergeSort (fun r s t hrs hst => ?_) (fun r s => ?_) records).imp
      fun hle => of_decide_eq_true hle
    · exact decide_eq_true (Int64.le_trans (of_decide_eq_true hrs) (of_decide_eq_true hst))
    · rw [Bool.or_eq_true, decide_eq_true_iff, decide_eq_true_iff]
      exact Int64.le_total r.id s.id
  have happart : (records.mergeSort fun r s => r.id ≤ s.id).Pairwise fun r s => r.id ≠ s.id := by
    have hperm := (List.mergeSort_perm records fun r s => r.id ≤ s.id).map StepRecord.id
    exact List.pairwise_map.1 (hperm.nodup_iff.2 hids)
  exact (hsorted.and happart).imp fun ⟨hle, hne⟩ => Int64.lt_of_le_of_ne hle hne

/-! ## The steps of a run -/

namespace Store

variable {s : Store} {collection : String}

/-- The steps that are stored under a run of a job. -/
def stepsOf (s : Store) (collection : String) (job : Int64) : List StepRecord :=
  (s.stepsIn collection).filter fun r => r.job.id = job

theorem mem_stepsOf {job : Int64} {r : StepRecord} : r ∈ s.stepsOf collection job ↔
    (∃ d ∈ (s.view collection).documents, StepRecord.ofDocument d = .ok r) ∧ r.job.id = job := by
  simp only [stepsOf, stepsIn, List.mem_filter, List.mem_filterMap, Except.toOption_eq_some,
    decide_eq_true_eq]

theorem nodup_ids_stepsOf (hs : s.WellFormed) (collection : String) (job : Int64) :
    ((s.stepsOf collection job).map (·.id)).Nodup :=
  (nodup_ids_stepsIn hs collection).sublist (List.filter_sublist.map _)

/-- A document names the run of a job if it is read as a step of it. -/
theorem get?_parent_iff {d : Document} (h : IsStepOrLacks StepRecord.parentField d) {job : Int64} :
    d.get? StepRecord.parentField = some (Json.ofInt64 job).value ↔
      ∃ r, StepRecord.ofDocument d = .ok r ∧ r.job.id = job := by
  constructor
  · intro hjob
    rcases h with ⟨r, hr⟩ | hnone
    · obtain ⟨-, -, hparent, -⟩ := StepRecord.get?_of_ofDocument hr
      rw [hparent, Option.some.injEq] at hjob
      exact ⟨r, hr, Json.Value.ofInt64_inj.1 hjob⟩
    · rw [hnone] at hjob
      cases hjob
  · rintro ⟨r, hr, rfl⟩
    exact (StepRecord.get?_of_ofDocument hr).2.2.1

/-- What is found for a run of a job are its steps. -/
theorem map_find_parent (h : s.Holds (IsStepOrLacks StepRecord.parentField) collection)
    (job : Int64) :
    ((s.view collection).find (.eq StepRecord.parentField (.ofInt64 job))).map
      StepRecord.ofDocument = (s.stepsOf collection job).map .ok :=
  map_find_of_selects fun d hd => by
    rw [Filter.selects_eq, Filter.holds_iff (Json.exact_ofInt64 _), get?_parent_iff (h d hd)]
    simp only [decide_eq_true_eq]

end Store

/-- The stores that operations of any clients lead to, from one in whose collection of steps whatever
names a run of a job is read as a step. -/
def Site.Registers (site : Site) (s : Store) : Prop :=
  ∃ (first : Store) (moves : List (Move Command)), first.Reachable ∧
    first.Holds (IsStepOrLacks StepRecord.parentField) site.steps ∧
    s = ((World.ofStore first).run site.program moves).store

theorem Site.Registers.of_holds {site : Site} {s : Store} (hreachable : s.Reachable)
    (hsteps : s.Holds (IsStepOrLacks StepRecord.parentField) site.steps) : site.Registers s :=
  ⟨s, [], hreachable, hsteps, rfl⟩

/-- Operations keep the steps of all runs legible. -/
theorem Site.Registers.holds {site : Site} {s : Store} (h : site.Registers s) :
    s.WellFormed ∧ s.Holds (IsStepOrLacks StepRecord.parentField) site.steps := by
  obtain ⟨first, moves, hfirst, hsteps, rfl⟩ := h
  exact Store.Holds.run (IsStepOrLacks.isKept (by decide)) hfirst hsteps moves

/-! ## The two queries -/

section Queries

variable {c : StepCatalogue} {s : Store} {job : JobExecution} {id : Int64} {e : StepExecution}

theorem run_findByJob (hcheck : s.check c.collection = .ok ())
    (hsteps : s.Holds (IsStepOrLacks StepRecord.parentField) c.collection) :
    (c.findByJob job).run Store.answer s =
      (.returned (((s.stepsOf c.collection job.id).mergeSort fun r r' => r.id ≤ r'.id).map
        (·.toExecution job)), s) := by
  have hread := Except.mapM_eq_ok.2 (Store.map_find_parent hsteps job.id)
  show (Program.bind (c.records _) _).run Store.answer s = _
  rw [Program.run_bind, run_records hcheck hread]
  rfl

/-- Looking up an id under a run returns the step of that run with the id, if there is one. -/
theorem run_get_iff (hs : s.WellFormed) (hcheck : s.check c.collection = .ok ())
    (hsteps : s.Holds (IsStepOrLacks StepRecord.parentField) c.collection) :
    (c.get job id).run Store.answer s = (.returned e, s) ↔
      ∃ r ∈ s.stepsOf c.collection job.id, r.id = id ∧ e = r.toExecution job := by
  have hfound : ∀ r ∈ s.stepsOf c.collection job.id,
      (c.get job r.id).run Store.answer s = (.returned (r.toExecution job), s) := by
    intro r hr
    obtain ⟨⟨d, hd, hread⟩, hjob⟩ := Store.mem_stepsOf.1 hr
    exact run_get_of_ofDocument hs hcheck hd hread hjob.symm
  constructor
  · intro hget
    by_contra hnone
    have hmissing : ∀ d ∈ (s.view c.collection).documents,
        d.get? idField = some (Json.ofInt64 id).value →
          d.get? StepRecord.parentField ≠ some (Json.ofInt64 job.id).value := by
      intro d hd hid hparent
      obtain ⟨r, hread, hjob⟩ := (Store.get?_parent_iff (hsteps d hd)).1 hparent
      have hr : r ∈ s.stepsOf c.collection job.id := Store.mem_stepsOf.2 ⟨⟨d, hd, hread⟩, hjob⟩
      rw [(StepRecord.get?_of_ofDocument hread).1, Option.some.injEq] at hid
      obtain rfl := Json.Value.ofInt64_inj.1 hid
      rw [hfound r hr] at hget
      cases hget
      exact hnone ⟨r, hr, rfl, rfl⟩
    rw [run_get_missing hcheck hmissing] at hget
    cases hget
  · rintro ⟨r, hr, rfl, rfl⟩
    exact hfound r hr

end Queries

/-- In every store that operations lead to: unless the store refuses requests about the steps, the query
for a run of a job returns the steps that are stored under it, all of them and each once, by strictly
ascending id, and no other. They are what looking up an id under that run returns. -/
theorem found_by_job {site : Site} {s : Store} (hs : site.Registers s) (client : Client)
    (job : JobExecution) :
    (∀ e, s.check site.steps = .error e →
      ((site.catalogue client).findByJob job).run Store.answer s = (.failed e, s) ∧
      ∀ id, ((site.catalogue client).get job id).run Store.answer s = (.failed e, s)) ∧
    (s.check site.steps = .ok () → ∃ records : List StepRecord,
      ((site.catalogue client).findByJob job).run Store.answer s =
        (.returned (records.map (·.toExecution job)), s) ∧
      records.Pairwise (fun r r' => r.id < r'.id) ∧
      records.Perm (s.stepsOf site.steps job.id) ∧
      (∀ d ∈ (s.view site.steps).documents,
        d.get? StepRecord.parentField = some (Json.ofInt64 job.id).value ↔
          ∃ r ∈ records, StepRecord.ofDocument d = .ok r) ∧
      ∀ id e, ((site.catalogue client).get job id).run Store.answer s = (.returned e, s) ↔
        e ∈ records.map (·.toExecution job) ∧ e.id = some id) := by
  obtain ⟨hwf, hsteps⟩ := hs.holds
  refine ⟨fun e hcheck => ?_, fun hcheck => ?_⟩
  · have hfind : ∀ f, Store.answer s (.find site.steps f) = (.error e, s) :=
      fun f => Store.read_of_refused hcheck
    exact ⟨Program.failed_of_eq_ask rfl (hfind _), fun id => Program.failed_of_eq_ask rfl (hfind _)⟩
  · have hperm := List.mergeSort_perm (s.stepsOf site.steps job.id) fun r r' => r.id ≤ r'.id
    refine ⟨_, run_findByJob (c := site.catalogue client) hcheck hsteps,
      StepRecord.pairwise_id_mergeSort (Store.nodup_ids_stepsOf hwf site.steps job.id), hperm,
      fun d hd => ?_, fun id e => ?_⟩
    · rw [Store.get?_parent_iff (hsteps d hd)]
      constructor
      · rintro ⟨r, hread, hjob⟩
        exact ⟨r, hperm.mem_iff.2 (Store.mem_stepsOf.2 ⟨⟨d, hd, hread⟩, hjob⟩), hread⟩
      · rintro ⟨r, hr, hread⟩
        exact ⟨r, hread, (Store.mem_stepsOf.1 (hperm.mem_iff.1 hr)).2⟩
    · rw [run_get_iff (c := site.catalogue client) hwf hcheck hsteps, List.mem_map]
      constructor
      · rintro ⟨r, hr, rfl, rfl⟩
        exact ⟨⟨r, hperm.mem_iff.2 hr, rfl⟩, rfl⟩
      · rintro ⟨⟨r, hr, rfl⟩, hid⟩
        exact ⟨r, hperm.mem_iff.1 hr, Option.some.inj hid, rfl⟩

theorem Store.registers_transcribed : Site.desk.Registers .transcribed :=
  .of_holds Store.reachable_transcribed fun d hd =>
    .inl (Store.exists_ofDocument_transcribed d hd)

/-- Of two executions of which the later one stands first, the earlier one is listed first. -/
theorem found_by_job_in_transcribed :
    Site.desk.Registers .transcribed ∧ Store.transcribed.check Site.desk.steps = .ok () ∧
    (Store.transcribed.stepsOf Site.desk.steps 7).map StepRecord.id = [2, 1] ∧
    ∃ e e' : StepExecution, e.id = some 1 ∧ e'.id = some 2 ∧
      ((Site.desk.catalogue .clerk).findByJob ⟨7, 3⟩).run Store.answer .transcribed =
        (.returned [e, e'], .transcribed) ∧
      ((Site.desk.catalogue .clerk).get ⟨7, 3⟩ 1).run Store.answer .transcribed =
        (.returned e, .transcribed) := by
  have hs := Store.registers_transcribed
  obtain ⟨hchecked, hids⟩ : Store.transcribed.check Site.desk.steps = .ok () ∧
      (Store.transcribed.stepsOf Site.desk.steps 7).map StepRecord.id = [2, 1] := by decide +kernel
  -- What the store holds is known; it shall not be computed again.
  generalize Store.transcribed = s at hs hchecked hids ⊢
  obtain ⟨records, hfound, hsorted, hperm, -, hget⟩ := (found_by_job hs .clerk ⟨7, 3⟩).2 hchecked
  have hids' : (records.map StepRecord.id).Pairwise (· < ·) := List.pairwise_map.2 hsorted
  have hlisted : records.map StepRecord.id = [1, 2] :=
    List.Perm.eq_of_pairwise (fun _ _ _ _ hab hba => absurd hab (Int64.lt_asymm hba)) hids'
      (by decide) ((hids ▸ hperm.map StepRecord.id).trans (.swap 1 2 []))
  obtain ⟨r, rest, rfl, hr, hrest⟩ := List.map_eq_cons_iff.1 hlisted
  obtain ⟨r', rest', rfl, hr', hrest'⟩ := List.map_eq_cons_iff.1 hrest
  obtain rfl := List.map_eq_nil_iff.1 hrest'
  exact ⟨hs, hchecked, hids, r.toExecution ⟨7, 3⟩, r'.toExecution ⟨7, 3⟩, congrArg some hr,
    congrArg some hr', hfound, (hget 1 _).2 ⟨List.mem_cons_self, congrArg some hr⟩⟩

end StepLedger

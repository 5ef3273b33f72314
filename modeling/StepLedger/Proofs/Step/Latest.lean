import Mathlib.Data.List.Induction
import StepLedger.Proofs.Calendar.Order
import StepLedger.Proofs.Step.Legible
import StepLedger.Proofs.Step.ReadAfterWrite

/-!
# The last execution of a step

The executions of a step of a job instance are counted and looked through for the one that started
last. Both look at the records with that job instance and that name (`Store.executionsOf`), in
whatever run of the job and at whatever place of the collection they stand; a time counts as the
instant that it denotes. Among the records, which have different ids, exactly one is the latest
(`StepRecord.Latest`), and it is the one that is found (`last_and_count`).
-/

namespace StepLedger

namespace StepRecord

/-! ## The order of starts -/

/-- The order of records: by start, and by id among those that started at the same time. -/
def order : StepRecord → StepRecord → Ordering :=
  compareLex (compareOn startTime) (compareOn id)

instance : Std.TransCmp order :=
  inferInstanceAs (Std.TransCmp (compareLex (compareOn startTime) (compareOn id)))

/-- The record started before the other, or at the same time with a smaller id. -/
def Precedes (r s : StepRecord) : Prop :=
  r.startTime.compare s.startTime = .lt ∨ r.startTime = s.startTime ∧ r.id < s.id

theorem order_swap (r s : StepRecord) : order r s = (order s r).swap := Std.OrientedCmp.eq_swap

theorem order_eq_lt {r s : StepRecord} : order r s = .lt ↔ r.Precedes s := by
  have hid : compare r.id s.id = .lt ↔ r.id < s.id := Std.compare_eq_lt
  show (compare r.startTime s.startTime).then (compare r.id s.id) = .lt ↔ _
  rw [Ordering.then_eq_lt, Std.LawfulEqOrd.compare_eq_iff_eq, hid]
  rfl

theorem id_eq_of_order {r s : StepRecord} (h : order r s = .eq) : r.id = s.id :=
  Std.LawfulEqOrd.compare_eq_iff_eq.1 (Ordering.then_eq_eq.1 h).2

theorem startedBefore_iff {r s : StepRecord} :
    StepCatalogue.startedBefore r s = true ↔ order r s = .lt := decide_eq_true_iff

/-- One of the records, and all others precede it. -/
def Latest (records : List StepRecord) (r : StepRecord) : Prop :=
  r ∈ records ∧ ∀ s ∈ records, s ≠ r → s.Precedes r

/-- No two records are the latest. -/
theorem Latest.unique {records : List StepRecord} {r s : StepRecord} (hr : Latest records r)
    (hs : Latest records s) : r = s := by
  by_contra hne
  have hrs := order_eq_lt.2 (hs.2 r hr.1 hne)
  have hsr := order_eq_lt.2 (hr.2 s hs.1 (Ne.symm hne))
  rw [order_swap, hsr] at hrs
  cases hrs

theorem Latest.of_perm {records others : List StepRecord} {r : StepRecord}
    (h : records.Perm others) (hr : Latest records r) : Latest others r :=
  ⟨h.mem_iff.1 hr.1, fun s hs => hr.2 s (h.mem_iff.2 hs)⟩

end StepRecord

namespace StepCatalogue

open StepRecord (order)

variable {records : List StepRecord} {r : StepRecord}

/-! ## Looking for the latest -/

theorem last?_concat (records : List StepRecord) (r : StepRecord) :
    last? (records ++ [r]) = some (match last? records with
      | none => r
      | some last => if startedBefore r last then last else r) := by
  rw [last?, List.foldl_concat, ← last?]
  cases last? records <;> rfl

theorem last?_eq_none_iff : last? records = none ↔ records = [] := by
  cases records using List.reverseRecOn with
  | nil => exact iff_of_true rfl rfl
  | append_singleton records r => simp [last?_concat]

/-- A record more is passed over if it precedes the one that was found, and is found otherwise. -/
theorem last?_concat_cases {s : StepRecord} (h : last? (records ++ [s]) = some r) :
    last? records = some r ∧ order s r = .lt ∨
      s = r ∧ ∀ last, last? records = some last → order s last ≠ .lt := by
  rw [last?_concat] at h
  cases hlast : last? records with
  | none =>
    rw [hlast] at h
    exact .inr ⟨Option.some.inj h, fun _ hnone => nomatch hnone⟩
  | some last =>
    rw [hlast, Option.some.injEq] at h
    dsimp only at h
    split at h
    · next hbefore => exact .inl ⟨congrArg some h, h ▸ StepRecord.startedBefore_iff.1 hbefore⟩
    · next hbefore =>
      refine .inr ⟨h, ?_⟩
      rintro _ ⟨⟩ hlt
      exact hbefore (StepRecord.startedBefore_iff.2 hlt)

/-- No record comes after the one that is found. -/
theorem isLE_of_last? (h : last? records = some r) :
    r ∈ records ∧ ∀ s ∈ records, (order s r).isLE := by
  induction records using List.reverseRecOn generalizing r with
  | nil => cases h
  | append_singleton records s ih =>
    obtain ⟨hlast, hlt⟩ | ⟨rfl, hlast⟩ := last?_concat_cases h
    · obtain ⟨hmem, hle⟩ := ih hlast
      refine ⟨List.mem_append_left _ hmem, fun s' hs' => ?_⟩
      rcases List.mem_append.1 hs' with hs' | hs'
      · exact hle s' hs'
      · rw [List.mem_singleton.1 hs', hlt]
        rfl
    · refine ⟨List.mem_append_right _ List.mem_cons_self, fun s' hs' => ?_⟩
      rcases List.mem_append.1 hs' with hs' | hs'
      · -- what was found before comes after `s'`, and does not come after the new record
        obtain ⟨last, hfound⟩ := Option.ne_none_iff_exists'.1
          (mt last?_eq_none_iff.1 (List.ne_nil_of_mem hs'))
        have hge : (order last s).isLE := by
          rw [StepRecord.order_swap, Ordering.isLE_swap]
          exact Ordering.isGE_iff_ne_lt.2 (hlast last hfound)
        exact Std.TransCmp.isLE_trans ((ih hfound).2 s' hs') hge
      · rw [List.mem_singleton.1 hs']
        exact Std.ReflCmp.isLE_rfl

/-- Among records with different ids, the one that is found is the latest. -/
theorem last?_eq_some_iff (hids : (records.map StepRecord.id).Nodup) :
    last? records = some r ↔ StepRecord.Latest records r := by
  have hfound : ∀ {r}, last? records = some r → StepRecord.Latest records r := by
    intro r h
    obtain ⟨hmem, hle⟩ := isLE_of_last? h
    refine ⟨hmem, fun s hs hne => StepRecord.order_eq_lt.1 ?_⟩
    cases horder : order s r with
    | lt => rfl
    | eq =>
      exact absurd (List.inj_on_of_nodup_map hids hs hmem (StepRecord.id_eq_of_order horder)) hne
    | gt =>
      have hle' := hle s hs
      rw [horder] at hle'
      cases hle'
  refine ⟨hfound, fun h => ?_⟩
  obtain ⟨last, hlast⟩ := Option.ne_none_iff_exists'.1
    (mt last?_eq_none_iff.1 (List.ne_nil_of_mem h.1))
  rw [hlast, (hfound hlast).unique h]

/-- The order in which records are looked through does not matter. -/
theorem last?_eq_of_perm {others : List StepRecord} (hids : (records.map StepRecord.id).Nodup)
    (h : records.Perm others) : last? records = last? others := by
  refine Option.ext fun r => ?_
  rw [last?_eq_some_iff hids, last?_eq_some_iff ((h.map _).nodup_iff.1 hids)]
  exact ⟨.of_perm h, .of_perm h.symm⟩

end StepCatalogue

/-! ## The candidates -/

namespace Store

variable {s : Store} {collection : String}

/-- The steps that can be read in a collection, in the order of their documents. -/
def stepsIn (s : Store) (collection : String) : List StepRecord :=
  (s.view collection).documents.filterMap fun d => (StepRecord.ofDocument d).toOption

/-- The steps with a name of a job instance. -/
def executionsOf (s : Store) (collection : String) (jobInstance : Int64) (name : String) :
    List StepRecord :=
  (s.stepsIn collection).filter fun r => r.job.jobInstance = jobInstance ∧ r.name = name

/-- The steps of a collection have different ids. -/
theorem nodup_ids_stepsIn (hs : s.WellFormed) (collection : String) :
    ((s.stepsIn collection).map (·.id)).Nodup := by
  have hkeys := (hs collection).1.nodup_documents
  rw [List.Nodup, List.pairwise_map] at hkeys ⊢
  rw [stepsIn, List.pairwise_filterMap]
  refine hkeys.imp fun hne r hr r' hr' hid => hne ?_
  have hget := (StepRecord.get?_of_ofDocument (Except.toOption_eq_some.1 hr)).1
  have hget' := (StepRecord.get?_of_ofDocument (Except.toOption_eq_some.1 hr')).1
  rw [Document.key?, Document.key?, hget, hget', hid]

theorem nodup_ids_executionsOf (hs : s.WellFormed) (collection : String) (jobInstance : Int64)
    (name : String) : ((s.executionsOf collection jobInstance name).map (·.id)).Nodup :=
  (nodup_ids_stepsIn hs collection).sublist (List.filter_sublist.map _)

/-- A name and a job instance are looked for in the steps that are read. -/
theorem selects_ofInstance {d : Document} (h : IsLegible d) (jobInstance : Int64) (name : String) :
    (StepCatalogue.ofInstance jobInstance name).selects d = true ↔
      ∃ r, StepRecord.ofDocument d = .ok r ∧ r.job.jobInstance = jobInstance ∧ r.name = name := by
  rw [StepCatalogue.ofInstance, Filter.selects_and, Filter.selects_eq, Bool.and_eq_true,
    Filter.holds_iff (Json.exact_ofInt64 _), Filter.holds_iff (Json.exact_string _)]
  constructor
  · rintro ⟨hinstance, hname⟩
    rcases h with ⟨r, hr⟩ | hnone
    · obtain ⟨-, hname', -, hinstance'⟩ := StepRecord.get?_of_ofDocument hr
      rw [hinstance', Option.some.injEq] at hinstance
      rw [hname', Option.some.injEq] at hname
      exact ⟨r, hr, Json.Value.ofInt64_inj.1 hinstance, Json.Value.string.inj hname⟩
    · rw [hnone] at hinstance
      cases hinstance
  · rintro ⟨r, hr, rfl, rfl⟩
    obtain ⟨-, hname, -, hinstance⟩ := StepRecord.get?_of_ofDocument hr
    exact ⟨hinstance, hname⟩

/-- What a filter finds are the steps with a property, and all of them can be read, if it selects the
documents that are read as such steps. -/
theorem map_find_of_selects {f : Filter} {p : StepRecord → Bool}
    (h : ∀ d ∈ (s.view collection).documents, f.selects d = true ↔
      ∃ r, StepRecord.ofDocument d = .ok r ∧ p r = true) :
    ((s.view collection).find f).map StepRecord.ofDocument =
      ((s.stepsIn collection).filter p).map .ok := by
  rw [stepsIn, Collection.find]
  generalize (s.view collection).documents = ds at h
  induction ds with
  | nil => rfl
  | cons d ds ih =>
    have htail := ih fun d hd => h d (List.mem_cons_of_mem _ hd)
    have hselects := h d List.mem_cons_self
    cases hread : StepRecord.ofDocument d with
    | error e =>
      rw [List.filter_cons_of_neg (by simp [hselects, hread]), List.filterMap_cons_none
        (by rw [hread]; rfl), htail]
    | ok r =>
      rw [List.filterMap_cons_some (by rw [hread]; rfl)]
      simp only [hread, Except.ok.injEq, exists_eq_left'] at hselects
      by_cases hr : p r = true
      · rw [List.filter_cons_of_pos (hselects.2 hr), List.filter_cons_of_pos hr,
          List.map_cons, List.map_cons, htail, hread]
      · rw [List.filter_cons_of_neg (mt hselects.1 hr), List.filter_cons_of_neg hr, htail]

/-- What is found for a step of a job instance are its executions. -/
theorem map_find_ofInstance (h : s.Legible collection) (jobInstance : Int64) (name : String) :
    ((s.view collection).find (StepCatalogue.ofInstance jobInstance name)).map
      StepRecord.ofDocument = (s.executionsOf collection jobInstance name).map .ok :=
  map_find_of_selects fun d hd => by
    simpa only [decide_eq_true_eq] using selects_ofInstance (h d hd) jobInstance name

end Store

/-! ## The two queries -/

section Queries

variable {c : StepCatalogue} {s : Store} {jobInstance : Int64} {name : String}

theorem run_count (hcheck : s.check c.collection = .ok ()) (hlegible : s.Legible c.collection) :
    (c.count jobInstance name).run Store.answer s =
      (.returned (s.executionsOf c.collection jobInstance name).length, s) := by
  have hlength := congrArg List.length (Store.map_find_ofInstance hlegible jobInstance name)
  rw [List.length_map, List.length_map] at hlength
  have hanswer := Store.count_of_check hcheck (StepCatalogue.ofInstance jobInstance name)
  rw [Collection.count, List.countP_eq_length_filter, ← Collection.find, hlength] at hanswer
  exact Program.run_request hanswer

theorem run_getLast (hcheck : s.check c.collection = .ok ()) (hlegible : s.Legible c.collection) :
    (c.getLast jobInstance name).run Store.answer s =
      (.returned ((StepCatalogue.last? (s.executionsOf c.collection jobInstance name)).map fun r =>
        r.toExecution r.job), s) := by
  have hread := Except.mapM_eq_ok.2 (Store.map_find_ofInstance hlegible jobInstance name)
  show (Program.bind (c.records _) _).run Store.answer s = _
  rw [Program.run_bind, run_records hcheck hread]
  rfl

/-- A store that refuses a request about the steps refuses both queries. -/
theorem run_refused {e : StoreError} (hcheck : s.check c.collection = .error e) :
    (c.count jobInstance name).run Store.answer s = (.failed e, s) ∧
      (c.getLast jobInstance name).run Store.answer s = (.failed e, s) := by
  have hcount : Store.answer s (.count c.collection (StepCatalogue.ofInstance jobInstance name)) =
      (.error e, s) := Store.read_of_refused hcheck
  have hfind : Store.answer s (.find c.collection (StepCatalogue.ofInstance jobInstance name)) =
      (.error e, s) := Store.read_of_refused hcheck
  exact ⟨Program.run_ask_error hcount, Program.failed_of_eq_ask rfl hfind⟩

end Queries

/-- In every store that operations lead to: unless the store refuses requests about the steps, the
executions of a step of a job instance are counted, and none is the last if and only if there are
none; otherwise exactly one of them is the latest, and it is the last, for the run of the job that it
is stored under. In any other such store with the same executions, in whatever order and however
their times are written there, the answers are the same. -/
theorem last_and_count {site : Site} {s : Store} (hs : site.Fills s) (client : Client)
    (jobInstance : Int64) (name : String) :
    (∀ e, s.check site.steps = .error e →
      ((site.catalogue client).count jobInstance name).run Store.answer s = (.failed e, s) ∧
      ((site.catalogue client).getLast jobInstance name).run Store.answer s = (.failed e, s)) ∧
    (s.check site.steps = .ok () → ∃ last,
      ((site.catalogue client).count jobInstance name).run Store.answer s =
        (.returned (s.executionsOf site.steps jobInstance name).length, s) ∧
      ((site.catalogue client).getLast jobInstance name).run Store.answer s =
        (.returned last, s) ∧
      (last = none ↔ (s.executionsOf site.steps jobInstance name).length = 0) ∧
      (∀ found, last = some found → ∃ r, found = r.toExecution r.job ∧
        ∀ r', StepRecord.Latest (s.executionsOf site.steps jobInstance name) r' ↔ r' = r) ∧
      ∀ client' s', site.Fills s' → s'.check site.steps = .ok () →
        (s.executionsOf site.steps jobInstance name).Perm
          (s'.executionsOf site.steps jobInstance name) →
        ((site.catalogue client').count jobInstance name).run Store.answer s' =
          (.returned (s.executionsOf site.steps jobInstance name).length, s') ∧
        ((site.catalogue client').getLast jobInstance name).run Store.answer s' =
          (.returned last, s')) := by
  refine ⟨fun e hcheck => run_refused (c := site.catalogue client) hcheck, fun hcheck => ?_⟩
  obtain ⟨hwf, hlegible⟩ := hs.legible
  have hids := Store.nodup_ids_executionsOf hwf site.steps jobInstance name
  refine ⟨_, run_count (c := site.catalogue client) hcheck hlegible,
    run_getLast (c := site.catalogue client) hcheck hlegible, ?_, ?_, ?_⟩
  · rw [Option.map_eq_none_iff, StepCatalogue.last?_eq_none_iff, List.length_eq_zero_iff]
    rfl
  · intro found hfound
    obtain ⟨r, hr, rfl⟩ := Option.map_eq_some_iff.1 hfound
    have hlatest := (StepCatalogue.last?_eq_some_iff hids).1 hr
    exact ⟨r, rfl, fun r' => ⟨fun h => h.unique hlatest, fun h => h ▸ hlatest⟩⟩
  · intro client' s' hs' hcheck' hperm
    have hlegible' := hs'.legible.2
    have hlast := StepCatalogue.last?_eq_of_perm hids hperm
    refine ⟨?_, ?_⟩
    · rw [run_count (c := site.catalogue client') hcheck' hlegible', hperm.length_eq]
      rfl
    · rw [run_getLast (c := site.catalogue client') hcheck' hlegible']
      show _ = (Program.Outcome.returned (Option.map _ (StepCatalogue.last?
        (s.executionsOf site.steps jobInstance name))), s')
      rw [hlast]
      rfl

/-- The store in which a counter has been seeded and an execution saved twice. -/
def Store.rerun : Store :=
  ((World.ofStore .inMemory).run Site.desk.program
    [.start (.clerk, .seed "step" 0 ""), .ask 0, .start (.clerk, .save .opening), .ask 1, .ask 1,
      .ask 1, .start (.clerk, .save .opening), .ask 2, .ask 2, .ask 2]).store

/-- The same steps in the opposite order, with one start written on the clock of another zone. -/
def Store.transcribed : Store :=
  (Store.inMemory.answer (.insertMany "steps" (((Store.rerun.stepsIn "steps").reverse.map
    StepRecord.toDocument).modify 0 fun d =>
      d.set "startTime" (.string "2024-02-29T01:00:00+01:00")))).2

theorem Store.fills_rerun : Site.desk.Fills .rerun := by
  refine ⟨.inMemory, _, .inMemory, ?_, rfl⟩
  rintro d ⟨⟩

theorem Store.reachable_transcribed : Store.transcribed.Reachable := .answer _ .inMemory

/-- All steps that have been copied can be read. -/
theorem Store.exists_ofDocument_transcribed :
    ∀ d ∈ (Store.transcribed.view "steps").documents, ∃ r, StepRecord.ofDocument d = .ok r := by
  have hread : ∀ d ∈ (Store.transcribed.view "steps").documents,
      (StepRecord.ofDocument d).toOption.isSome = true := by decide +kernel
  intro d hd
  obtain ⟨r, hr⟩ := Option.isSome_iff_exists.1 (hread d hd)
  exact ⟨r, Except.toOption_eq_some.1 hr⟩

theorem Store.fills_transcribed : Site.desk.Fills .transcribed :=
  .of_legible Store.reachable_transcribed fun d hd =>
    .inl (Store.exists_ofDocument_transcribed d hd)

/-- The second of two executions that started at the same time is the last, also where it stands
first. -/
theorem last_and_count_of_rerun :
    Site.desk.Fills .rerun ∧ Store.rerun.check Site.desk.steps = .ok () ∧
    Site.desk.Fills .transcribed ∧ Store.transcribed.check Site.desk.steps = .ok () ∧
    (Store.rerun.executionsOf Site.desk.steps 3 "open").Perm
      (Store.transcribed.executionsOf Site.desk.steps 3 "open") ∧
    ∃ r : StepRecord, r.id = 2 ∧
      StepRecord.Latest (Store.rerun.executionsOf Site.desk.steps 3 "open") r ∧
      ((Site.desk.catalogue .clerk).getLast 3 "open").run Store.answer .transcribed =
        (.returned (some (r.toExecution r.job)), .transcribed) := by
  have hchecked : Store.rerun.check Site.desk.steps = .ok () := by decide +kernel
  have hchecked' : Store.transcribed.check Site.desk.steps = .ok () := by decide +kernel
  have hperm : (Store.rerun.executionsOf Site.desk.steps 3 "open").Perm
      (Store.transcribed.executionsOf Site.desk.steps 3 "open") := by decide +kernel
  have hreturned : (((Site.desk.catalogue .clerk).getLast 3 "open").run Store.answer .rerun).1 =
      .returned (some ((StepExecution.opening.identified 2 0).cut 3)) := by decide +kernel
  obtain ⟨last, -, hlast, -, hlatest, hothers⟩ :=
    (last_and_count Store.fills_rerun .clerk 3 "open").2 hchecked
  rw [hlast] at hreturned
  obtain rfl := Program.Outcome.returned.inj hreturned
  obtain ⟨r, hfound, hr⟩ := hlatest _ rfl
  obtain ⟨-, hget⟩ := hothers .clerk .transcribed Store.fills_transcribed hchecked' hperm
  refine ⟨Store.fills_rerun, hchecked, Store.fills_transcribed, hchecked', hperm, r, ?_, (hr r).2 rfl,
    ?_⟩
  · exact Option.some.inj (congrArg StepExecution.id hfound).symm
  · rw [hget, hfound]

end StepLedger

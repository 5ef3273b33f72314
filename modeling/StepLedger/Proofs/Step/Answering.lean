import StepLedger.Proofs.Reliance
import StepLedger.Proofs.Sequence.Holding
import StepLedger.Proofs.Step.Ledger

/-!
# What operations answer for

Whatever others do between the requests of an operation, as long as the store has a ledger and all
documents among the counters are counters, the operation finds no fault with what is stored: it reads
what it finds, and it finds no more than one step under an id. The executions that it looks up are as
they are stored at its last request (`Operation.fulfils_program`).
-/

namespace StepLedger

open Sequence Program

/-! ## Errors that find fault with what is stored -/

/-- An error is of a kind that tells of documents that are there although they should not, or not as
they are. -/
def StoreError.BlamesDocuments (e : StoreError) : Prop :=
  e.kind ∈ [ErrorKind.duplicateKey, .bulkWrite, .multipleRecordsFound, .serialization]

theorem StoreError.not_blamesDocuments {e : StoreError} (kind : ErrorKind) (h : e.kind = kind)
    (hkind : kind ∉ [ErrorKind.duplicateKey, .bulkWrite, .multipleRecordsFound, .serialization]) :
    ¬ e.BlamesDocuments := by
  rw [BlamesDocuments, h]
  exact hkind

namespace Site

variable (site : Site)

/-- Others leave a store with a ledger. -/
def rely : Store → Store → Prop :=
  fun _ s => ∃ value records, Ledger site s value records

/-- Where all documents among the counters are counters, no error finds fault with documents. -/
def faultless : Store → StoreError → Prop :=
  fun s e => s.HoldsCounters site.counters → ¬ e.BlamesDocuments

end Site

namespace Operation

variable {site : Site} {client : Client} {s : Store}

/-- A result that needs no store fails because of an argument. -/
theorem fulfils_argument {α : Type} {result : Except StoreError α}
    (h : ∀ e, result = .error e → e.kind = .invalidArgument) :
    Fulfils site.rely (fun _ a => result = .ok a) site.faultless s (ofExcept result) :=
  fulfils_ofExcept (fun _ hok => hok) fun e herror _ =>
    StoreError.not_blamesDocuments .invalidArgument (h e herror) (by decide)

/-! ## Counters -/

/-- A counter is read where a document is found. -/
theorem fulfils_ofFound {name : String} {found : Option Document}
    (h : ∀ d, found = some d → s.HoldsCounters site.counters → IsCounter d) :
    Fulfils site.rely (fun _ _ => True) site.faultless s
      (ofExcept (Counter.ofFound site.counters name found)) := by
  refine fulfils_ofExcept (fun _ _ => trivial) fun e herror hcounters => ?_
  cases found with
  | none =>
    cases herror
    exact StoreError.not_blamesDocuments .notFound rfl (by decide)
  | some d =>
    obtain ⟨counter, hdecode⟩ := h d rfl hcounters
    rw [Allocator.ofFound_eq_ok hdecode] at herror
    cases herror

theorem fulfils_findCounter (name : String) : Fulfils site.rely
    (fun s found => ∀ d, found = some d → s.HoldsCounters site.counters → IsCounter d)
    site.faultless s (findOne site.counters (.byId (.string name))) :=
  fulfils_findOne fun _ _ d hfound hcounters =>
    hcounters d (List.mem_of_mem_filter (List.mem_of_mem_head? hfound))

/-- What is changed or made among counters is found. -/
theorem fulfils_modifyCounter {name : String} {u : Update} {upsert : Bool}
    (happly : ∀ before after, IsCounter before → u.apply before = .ok after → IsCounter after) :
    Fulfils site.rely
      (fun s found => ∀ d, found = some d → s.HoldsCounters site.counters → IsCounter d)
      site.faultless s
      (Program.request (.findAndModify site.counters (.byId (.string name)) u ⟨true, upsert⟩)) := by
  refine fulfils_request fun s' found s'' hrely hanswer d hfound hcounters => ?_
  obtain ⟨value, records, hledger⟩ := hrely
  subst hfound
  exact Store.isCounter_of_found hledger.wellFormed happly hanswer hcounters

theorem fulfils_read (name : String) :
    Fulfils site.rely (fun _ _ => True) site.faultless s (Counter.read site.counters name) := by
  refine fulfils_bind (fulfils_argument fun _ => kind_of_checkName) fun s _ _ => ?_
  exact fulfils_bind (fulfils_findCounter name) fun s found hfound => fulfils_ofFound hfound

theorem fulfils_seed (name : String) (initial : Int64) (note : String) :
    Fulfils site.rely (fun _ _ => True) site.faultless s
      (Counter.seed site.counters name initial note) := by
  refine fulfils_bind (fulfils_argument fun _ => kind_of_checkName) fun s _ _ => ?_
  exact fulfils_bind (fulfils_modifyCounter fun _ _ h happly => h.seed happly) fun s found hfound =>
    fulfils_ofFound hfound

theorem fulfils_round (name : String) :
    Fulfils site.rely (fun _ _ => True) site.faultless s (Allocator.round site.counters name) := by
  refine fulfils_bind (fulfils_findCounter name) fun s found hfound => ?_
  refine fulfils_bind (fulfils_ofFound hfound) fun s counter _ => ?_
  refine fulfils_bind (fulfils_argument fun _ => Allocator.kind_of_successor) fun s next _ => ?_
  exact fulfils_bind (fulfils_request fun _ _ _ _ _ => trivial) fun _ _ _ => trivial

theorem fulfils_swap (name : String) (rounds : Nat) :
    Fulfils site.rely (fun _ _ => True) site.faultless s
      (Allocator.swap site.counters name rounds) := by
  induction rounds generalizing s with
  | zero => trivial
  | succ rounds ih =>
    refine fulfils_bind (fulfils_round name) fun s result _ => ?_
    obtain ⟨next, won⟩ := result
    cases won with
    | true => trivial
    | false => exact ih

theorem fulfils_next (name : String) :
    Fulfils site.rely (fun _ _ => True) site.faultless s ((site.allocator client).next name) := by
  refine fulfils_bind (fulfils_argument fun _ => kind_of_checkName) fun s _ _ => ?_
  dsimp only [Site.allocator]
  cases client.strategy with
  | atomicIncrement =>
    refine fulfils_bind (fulfils_modifyCounter fun _ _ => IsCounter.increment) fun s found hfound => ?_
    exact fulfils_bind (fulfils_ofFound hfound) fun _ _ _ => trivial
  | compareAndSwap => exact fulfils_swap name client.rounds

end Operation

/-! ## Steps that are found -/

/-- The record that is selected under an id has this id. -/
theorem StepRecord.id_of_selects {id : Int64} {field : String} {value : Json} {r : StepRecord}
    (hvalue : value.Exact)
    (h : ((Filter.byId (.ofInt64 id)).and field value).selects r.toDocument = true) : r.id = id := by
  have hid := ((Filter.selects_byId_and_iff (Json.exact_ofInt64 id) hvalue).1 h).1
  exact Store.get?_id_toDocument_iff.1 hid

/-- An execution has the id and the version of a step that is stored. -/
def Store.Shows (s : Store) (steps : String) (e : StepExecution) : Prop :=
  ∃ r, s.step? steps r.id = some r ∧ e.id = some r.id ∧ e.version = some r.version

/-- The executions that were looked up. -/
def Reply.looked : Reply → List StepExecution
  | .found e => [e]
  | .foundAll es => es
  | .last e => e.toList
  | _ => []

namespace Ledger

variable {site : Site} {s : Store} {value : Int64} {records : List StepRecord}
  (h : Ledger site s value records)
include h

/-- What is found are the records that the filter selects. -/
theorem find_eq (f : Filter) : (s.view site.steps).find f =
    (records.filter fun r => f.selects r.toDocument).map StepRecord.toDocument := by
  rw [Collection.find, h.documents, List.filter_map]
  rfl

/-- There is no more than one record under an id. -/
theorem length_le_one {found : List StepRecord} (hfound : found.Sublist records) {id : Int64}
    (hids : ∀ r ∈ found, r.id = id) : found.length ≤ 1 := by
  have hn := h.nodup.sublist (hfound.map StepRecord.id)
  have hall : ∀ other ∈ found.map StepRecord.id, other = id := fun other hother => by
    obtain ⟨r, hr, rfl⟩ := List.mem_map.1 hother
    exact hids r hr
  rwa [List.eq_replicate_of_mem hall, List.nodup_replicate, List.length_map] at hn

/-- What is read of a record has the id and the version of a step that is stored. -/
theorem shows_of_mem {r : StepRecord} (hr : r ∈ records) (job : JobExecution) :
    s.Shows site.steps (r.carried.toExecution job) := ⟨r.carried, h.step?_of_mem hr, rfl, rfl⟩

end Ledger

/-- The last of the records is one of them. -/
theorem StepCatalogue.mem_of_last? {records : List StepRecord} :
    ∀ r, last? records = some r → r ∈ records := by
  refine List.foldlRecOn (motive := fun last => ∀ r, last = some r → r ∈ records) records _
    (fun r h => by cases h) ?_
  intro last ih record hrecord r h
  cases last with
  | none => exact Option.some.inj h ▸ hrecord
  | some last =>
    rw [← Option.some.inj h]
    split
    · exact ih last rfl
    · exact hrecord

namespace Operation

variable {site : Site} {client : Client} {s : Store}

/-- The records of a ledger are read. -/
theorem fulfils_records (f : Filter) : Fulfils site.rely
    (fun s found => ∃ value records, Ledger site s value records ∧
      found = (records.filter fun r => f.selects r.toDocument).map StepRecord.carried)
    site.faultless s ((site.catalogue client).records f) := by
  rintro s' documents s'' ⟨value, records, hledger⟩ hanswer
  obtain ⟨e, -, hfind⟩ | hfind := s'.find_eq site.steps f
  · exact nomatch hfind.symm.trans hanswer
  · cases hfind.symm.trans hanswer
    show Fulfils _ _ _ _ (ofExcept
      ((((s'.view site.steps).find f).mapM StepRecord.ofDocument).mapError .serialization))
    rw [hledger.find_eq, StepRecord.mapM_ofDocument]
    exact ⟨value, records, hledger, rfl⟩

theorem fulfils_get (job : JobExecution) (id : Int64) :
    Fulfils site.rely (fun s e => s.Shows site.steps e) site.faultless s
      ((site.catalogue client).get job id) := by
  refine fulfils_bind (fulfils_records _) fun s found hfound => ?_
  obtain ⟨value, records, hledger, rfl⟩ := hfound
  have hone : (records.filter fun r => ((Filter.byId (.ofInt64 id)).and StepRecord.parentField
      (.ofInt64 job.id)).selects r.toDocument).length ≤ 1 :=
    hledger.length_le_one List.filter_sublist fun r hr =>
      StepRecord.id_of_selects (Json.exact_ofInt64 job.id) (List.mem_filter.1 hr).2
  match hfound : records.filter _ with
  | [] => exact fun _ => StoreError.not_blamesDocuments .notFound rfl (by decide)
  | [r] => exact hledger.shows_of_mem (List.mem_of_mem_filter (hfound ▸ List.mem_cons_self)) job
  | r :: r' :: rest => rw [hfound] at hone; simp at hone

theorem fulfils_findByJob (job : JobExecution) :
    Fulfils site.rely (fun s es => ∀ e ∈ es, s.Shows site.steps e) site.faultless s
      ((site.catalogue client).findByJob job) := by
  refine fulfils_bind (fulfils_records _) fun s found hfound e he => ?_
  obtain ⟨value, records, hledger, rfl⟩ := hfound
  obtain ⟨_, hsorted, rfl⟩ := List.mem_map.1 he
  obtain ⟨r, hr, rfl⟩ := List.mem_map.1 (List.mem_mergeSort.1 hsorted)
  exact hledger.shows_of_mem (List.mem_of_mem_filter hr) job

theorem fulfils_getLast (jobInstance : Int64) (name : String) :
    Fulfils site.rely (fun s last => ∀ e ∈ last, s.Shows site.steps e) site.faultless s
      ((site.catalogue client).getLast jobInstance name) := by
  refine fulfils_bind (fulfils_records _) fun s found hfound e he => ?_
  obtain ⟨value, records, hledger, rfl⟩ := hfound
  obtain ⟨_, hlast, rfl⟩ := Option.map_eq_some_iff.1 he
  obtain ⟨r, hr, rfl⟩ := List.mem_map.1 (StepCatalogue.mem_of_last? _ hlast)
  exact hledger.shows_of_mem (List.mem_of_mem_filter hr) r.job

/-! ## Steps that are written -/

theorem fulfils_identify (e : StepExecution) : Fulfils site.rely (fun _ _ => True) site.faultless s
    ((site.catalogue client).identify e) := by
  refine fulfils_bind (fulfils_argument fun _ => StepCatalogue.kind_of_checkNew) fun s _ _ => ?_
  refine fulfils_bind (fulfils_next site.sequence) fun s id _ => ?_
  exact fulfils_bind (fulfils_argument fun _ => StepRecord.kind_of_ofExecution) fun _ _ _ => trivial

theorem fulfils_identifyAll (es : List StepExecution) : Fulfils site.rely (fun _ _ => True)
    site.faultless s ((site.catalogue client).identifyAll es) := by
  induction es generalizing s with
  | nil => trivial
  | cons e es ih =>
    refine fulfils_bind (fulfils_identify e) fun s new _ => ?_
    exact fulfils_bind ih fun s rest _ => trivial

theorem fulfils_save (e : StepExecution) : Fulfils site.rely (fun _ _ => True) site.faultless s
    ((site.catalogue client).save e) := by
  refine fulfils_bind (fulfils_identify e) fun s new _ => ?_
  exact fulfils_bind (fulfils_request fun _ _ _ _ _ => trivial) fun _ _ _ => trivial

theorem fulfils_saveAll (es : Option (List StepExecution)) : Fulfils site.rely (fun _ _ => True)
    site.faultless s ((site.catalogue client).saveAll es) := by
  cases es with
  | none => exact fun _ => StoreError.not_blamesDocuments .invalidArgument rfl (by decide)
  | some es =>
    cases es with
    | nil => trivial
    | cons e es =>
      refine fulfils_bind (fulfils_identifyAll (e :: es)) fun s new _ => ?_
      exact fulfils_bind (fulfils_request fun _ _ _ _ _ => trivial) fun _ _ _ => trivial

/-- What is said of an update that found nothing is what a look at the step shows. -/
theorem fulfils_diagnose_of {rely : Store → Store → Prop} {F : Store → StoreError → Prop}
    {id : Int64} {expected : Int32} (hrely : ∀ s', rely s s' → site.rely s s')
    (hmissing : ∀ s', rely s s' → s'.step? site.steps id = none →
      F s' (.notFound (.step id.toInt)))
    (hfound : ∀ s' r, rely s s' → s'.step? site.steps id = some r →
      F s' (.optimisticLockConflict id.toInt expected.toInt r.version.toInt)) :
    Fulfils rely (fun _ _ => True) F s ((site.catalogue client).diagnose id expected) := by
  refine fulfils_bind (fulfils_findOne (Q := fun s' found => rely s s' ∧
    found = (s'.step? site.steps id).map StepRecord.toDocument) ?_) fun s' found hlooked => ?_
  · intro s' hothers
    obtain ⟨value, records, hledger⟩ := hrely s' hothers
    exact ⟨hothers, hledger.head?_find id⟩
  · obtain ⟨hothers, hdocument⟩ := hlooked
    subst hdocument
    cases hstep : s'.step? site.steps id with
    | none => exact hmissing s' hothers hstep
    | some r =>
      show Fulfils _ _ _ _ (Program.bind
        (ofExcept ((StepRecord.ofDocument r.toDocument).mapError .serialization)) _)
      rw [StepRecord.ofDocument_toDocument]
      exact hfound s' r hothers hstep

theorem fulfils_diagnose (id : Int64) (expected : Int32) : Fulfils site.rely (fun _ _ => True)
    site.faultless s ((site.catalogue client).diagnose id expected) :=
  fulfils_diagnose_of (fun _ h => h)
    (fun _ _ _ _ => StoreError.not_blamesDocuments .notFound rfl (by decide))
    fun _ _ _ _ _ => StoreError.not_blamesDocuments .optimisticLockConflict rfl (by decide)

theorem fulfils_update (e : StepExecution) : Fulfils site.rely (fun _ _ => True) site.faultless s
    ((site.catalogue client).update e) := by
  obtain ⟨error, hkind, h⟩ | ⟨id, version, next, r, hover⟩ := update_cases site client e
  · rw [h]
    exact fun _ => StoreError.not_blamesDocuments .invalidArgument hkind (by decide)
  · rw [hover.update_eq]
    intro s' result s'' _ _
    show Fulfils _ _ _ _ (if UpdateResult.matched result = 0 then _ else _)
    split
    · exact fulfils_diagnose id version
    · trivial

/-- What an operation looks up is as it is stored, and it finds no fault with what is stored. -/
theorem fulfils_program (operation : Operation) : Fulfils site.rely
    (fun s reply => ∀ e ∈ reply.looked, s.Shows site.steps e) site.faultless s
    (operation.program site client) := by
  have hnone : ∀ {s : Store}, ∀ e ∈ ([] : List StepExecution), s.Shows site.steps e := by simp
  cases operation with
  | save e => exact fulfils_bind (fulfils_save e) fun _ _ _ => hnone
  | saveAll es => exact fulfils_bind (fulfils_saveAll es) fun _ _ _ => hnone
  | update e => exact fulfils_bind (fulfils_update e) fun _ _ _ => hnone
  | get job id =>
    refine fulfils_bind (fulfils_get job id) fun s e he other hother => ?_
    rwa [List.mem_singleton.1 hother]
  | findByJob job => exact fulfils_bind (fulfils_findByJob job) fun _ _ he => he
  | getLast jobInstance name =>
    refine fulfils_bind (fulfils_getLast jobInstance name) fun s last hlast e he => ?_
    exact hlast e (Option.mem_toList.1 he)
  | count jobInstance name =>
    exact fulfils_bind (fulfils_request fun _ _ _ _ _ => trivial) fun _ _ _ => hnone
  | next name => exact fulfils_bind (fulfils_next name) fun _ _ _ => hnone
  | seed name initial note => exact fulfils_bind (fulfils_seed name initial note) fun _ _ _ => hnone
  | read name => exact fulfils_bind (fulfils_read name) fun _ _ _ => hnone

end Operation

end StepLedger

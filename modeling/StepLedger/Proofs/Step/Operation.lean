import StepLedger.Proofs.Program
import StepLedger.Proofs.Sequence.Allocates
import StepLedger.Proofs.Step.Codec
import StepLedger.Proofs.World
import StepLedger.Step.Catalogue

/-!
# Operations on stored steps

All that clients may ask of a repository of steps, as data: an `Operation` is run by a `Client` on a
`Site` and ends with a `Reply`. `Operation.Answers` says which replies belong to an operation and how
the executions in them come from those that were passed. `Site.Poses` are the requests that
operations are made of (`asks_program`).
-/

namespace StepLedger

open Sequence

/-- Where steps and counters are kept. -/
structure Site where
  /-- The collection of the steps. -/
  steps : String
  /-- The collection of the counters. -/
  counters : String
  /-- The sequence of the ids of steps. -/
  sequence : String

/-- How a client works: by which strategy and in how many rounds it allocates ids, and how many
characters of an exit description it stores. -/
structure Client where
  strategy : Strategy
  rounds : Nat
  cap : Nat

/-- What hands out values to a client. -/
def Site.allocator (site : Site) (client : Client) : Allocator :=
  ⟨site.counters, client.strategy, client.rounds⟩

/-- The catalogue of a client. -/
def Site.catalogue (site : Site) (client : Client) : StepCatalogue :=
  ⟨site.steps, site.allocator client, site.sequence, client.cap⟩

/-- What a client may ask of a repository. -/
inductive Operation where
  | save (e : StepExecution)
  | saveAll (es : Option (List StepExecution))
  | update (e : StepExecution)
  | get (job : JobExecution) (id : Int64)
  | findByJob (job : JobExecution)
  | getLast (jobInstance : Int64) (name : String)
  | count (jobInstance : Int64) (name : String)
  /-- The next value of a sequence. -/
  | next (sequence : String)
  | seed (sequence : String) (initial : Int64) (note : String)
  | read (sequence : String)

/-- Whether an operation only looks at what is stored. -/
def Operation.looks : Operation → Bool
  | .get .. | .findByJob _ | .getLast .. | .count .. | .read _ => true
  | _ => false

/-- What an operation ends with. -/
inductive Reply where
  | saved (e : StepExecution)
  | savedAll (es : List StepExecution)
  | updated (e : StepExecution)
  | found (e : StepExecution)
  | foundAll (es : List StepExecution)
  | last (e : Option StepExecution)
  | counted (n : Nat)
  | allocated (n : Int64)
  | counter (c : Counter)

/-- The executions that were written, as they are returned. -/
def Reply.written : Reply → List StepExecution
  | .saved e | .updated e => [e]
  | .savedAll es => es
  | _ => []

namespace Operation

/-- The program of an operation. -/
def program (site : Site) (client : Client) : Operation → Program Reply
  | .save e => ((site.catalogue client).save e).bind fun e => .done (.saved e)
  | .saveAll es => ((site.catalogue client).saveAll es).bind fun es => .done (.savedAll es)
  | .update e => ((site.catalogue client).update e).bind fun e => .done (.updated e)
  | .get job id => ((site.catalogue client).get job id).bind fun e => .done (.found e)
  | .findByJob job => ((site.catalogue client).findByJob job).bind fun es => .done (.foundAll es)
  | .getLast jobInstance name =>
    ((site.catalogue client).getLast jobInstance name).bind fun e => .done (.last e)
  | .count jobInstance name =>
    ((site.catalogue client).count jobInstance name).bind fun n => .done (.counted n)
  | .next name => ((site.allocator client).next name).bind fun n => .done (.allocated n)
  | .seed name initial note =>
    (Counter.seed site.counters name initial note).bind fun c => .done (.counter c)
  | .read name => (Counter.read site.counters name).bind fun c => .done (.counter c)

/-- What is returned for an execution that is saved: the execution under its id at version 0. -/
def SavedAs (e saved : StepExecution) : Prop := ∃ id, saved = e.identified id 0

/-- What is returned for an execution that is written over its version: the execution at the version
after. -/
def UpdatedAs (e updated : StepExecution) : Prop :=
  ∃ id version next, e.id = some id ∧ e.version = some version ∧
    next.toInt = version.toInt + 1 ∧ updated = e.identified id next

/-- The replies that belong to an operation. -/
def Answers : Operation → Reply → Prop
  | .save e, .saved saved => SavedAs e saved
  | .saveAll (some es), .savedAll saved => List.Forall₂ SavedAs es saved
  | .update e, .updated updated => UpdatedAs e updated
  | .get _ _, .found _ | .findByJob _, .foundAll _ | .getLast _ _, .last _
  | .count _ _, .counted _ | .next _, .allocated _ | .seed _ _ _, .counter _
  | .read _, .counter _ => True
  | _, _ => False

end Operation

/-- A client with the operation that it calls. -/
abbrev Command := Client × Operation

/-- The program of a command. -/
def Site.program (site : Site) (command : Command) : Program Reply :=
  command.2.program site command.1

/-! ## Arguments -/

section Arguments

variable {e : StepExecution} {error : StoreError}

theorem StepExecution.kind_of_need {α : Type} {absence : ArgumentError} {o : Option α}
    (h : need absence o = .error error) : error.kind = .invalidArgument := by
  cases o with
  | none => cases h; rfl
  | some a => cases h

theorem Counters.kind_of_check {c : Counters} (h : c.check = .error error) :
    error.kind = .invalidArgument := by
  unfold Counters.check at h
  split at h <;> cases h
  rfl

theorem StepExecution.kind_of_required (h : e.required = .error error) :
    error.kind = .invalidArgument := by
  obtain h | ⟨_, -, h⟩ := Except.bind_eq_error.1 h
  · exact kind_of_need h
  obtain h | ⟨_, -, h⟩ := Except.bind_eq_error.1 h
  · exact kind_of_need h
  obtain h | ⟨_, -, h⟩ := Except.bind_eq_error.1 h
  · exact kind_of_need h
  obtain h | ⟨_, -, h⟩ := Except.bind_eq_error.1 h
  · exact Counters.kind_of_check h
  · cases h

theorem StepExecution.kind_of_validate (h : e.validate = .error error) :
    error.kind = .invalidArgument := kind_of_required (Except.map_eq_error.1 h)

theorem StepRecord.kind_of_ofExecution {cap : Nat} (h : ofExecution e cap = .error error) :
    error.kind = .invalidArgument := by
  obtain h | ⟨required, -, h⟩ := Except.bind_eq_error.1 h
  · exact StepExecution.kind_of_required h
  · split at h <;> cases h
    rfl

theorem StepCatalogue.kind_of_checkNew (h : checkNew e = .error error) :
    error.kind = .invalidArgument := by
  obtain h | ⟨_, -, h⟩ := Except.bind_eq_error.1 h
  · exact StepExecution.kind_of_validate h
  · cases hid : e.id.isSome <;> cases hversion : e.version.isSome <;>
      rw [hid, hversion] at h <;> cases h <;> rfl

theorem StepCatalogue.kind_of_nextVersion {id : Int64} {version : Int32}
    (h : nextVersion id version = .error error) : error.kind = .invalidArgument := by
  unfold nextVersion at h
  split at h <;> cases h
  rfl

theorem Sequence.kind_of_checkName {name : String} (h : checkName name = .error error) :
    error.kind = .invalidArgument := by
  unfold checkName at h
  split at h <;> cases h
  rfl

theorem Sequence.Allocator.kind_of_successor {name : String} {value : Int64}
    (h : successor name value = .error error) : error.kind = .invalidArgument := by
  unfold successor at h
  split at h <;> cases h
  rfl

end Arguments

/-! ## Requests -/

/-- The requests that operations are made of. -/
inductive Site.Poses (site : Site) : Request → Prop
  | insertOne (r : StepRecord) : site.Poses (.insertOne site.steps r.toDocument)
  | insertMany (rs : List StepRecord) :
    site.Poses (.insertMany site.steps (rs.map StepRecord.toDocument))
  | find (f : Filter) : site.Poses (.find site.steps f)
  | count (f : Filter) : site.Poses (.count site.steps f)
  | update (id : Int64) (version : Int32) (r : StepRecord) (hid : r.id = id)
    (hversion : r.version.toInt = version.toInt + 1) :
    site.Poses (.updateFirst site.steps
      ((Filter.byId (.ofInt64 id)).and StepRecord.versionField (.ofInt32 version)) r.update)
  | read (name : String) : site.Poses (.find site.counters (.byId (.string name)))
  | increment (name : String) : site.Poses (.findAndModify site.counters (.byId (.string name))
      (Update.empty.andInc valueField 1) ⟨true, false⟩)
  | swap (name : String) (value next : Int64) : site.Poses (.updateFirst site.counters
      ((Filter.byId (.string name)).and valueField (.ofInt64 value))
      (Update.empty.andSet valueField (.ofInt64 next)))
  | seed (name : String) (initial : Int64) (note : String) :
    site.Poses (.findAndModify site.counters (.byId (.string name)) (Counter.seeding initial note)
      ⟨true, true⟩)

namespace Operation

open Program

variable {site : Site} {client : Client}

/-! ## Requests of one counter -/

section Counter

variable {P : Request → Prop} {name : String}
  (hread : P (.find site.counters (.byId (.string name))))

include hread in
theorem asks_read : (Counter.read site.counters name).Asks P fun _ => True := by
  refine asks_bind (asks_ofExcept fun _ _ => trivial) fun _ _ => ?_
  exact asks_bind (asks_findOne hread fun _ => trivial) fun _ _ => asks_ofExcept fun _ _ => trivial

theorem asks_seed (initial : Int64) (note : String)
    (hseed : P (.findAndModify site.counters (.byId (.string name)) (Counter.seeding initial note)
      ⟨true, true⟩)) :
    (Counter.seed site.counters name initial note).Asks P fun _ => True := by
  refine asks_bind (asks_ofExcept fun _ _ => trivial) fun _ _ => ?_
  exact asks_bind (asks_request hseed fun _ => trivial) fun _ _ =>
    asks_ofExcept fun _ _ => trivial

variable (hswap : ∀ value next : Int64, P (.updateFirst site.counters
    ((Filter.byId (.string name)).and valueField (.ofInt64 value))
    (Update.empty.andSet valueField (.ofInt64 next))))
include hread hswap

theorem asks_swap (rounds : Nat) :
    (Allocator.swap site.counters name rounds).Asks P fun _ => True := by
  induction rounds with
  | zero => trivial
  | succ rounds ih =>
    rw [Allocator.swap_succ_eq]
    refine ⟨hread, fun found => ?_⟩
    refine asks_bind (asks_ofExcept fun _ _ => trivial) fun counter _ => ?_
    refine asks_bind (asks_ofExcept fun _ _ => trivial) fun next _ => ?_
    refine ⟨hswap counter.value next, fun result => ?_⟩
    show Asks _ _ (if UpdateResult.matched result = 1 then _ else _)
    split
    · trivial
    · exact ih

theorem asks_next (hincrement : P (.findAndModify site.counters (.byId (.string name))
      (Update.empty.andInc valueField 1) ⟨true, false⟩)) :
    ((site.allocator client).next name).Asks P fun _ => True := by
  rw [Site.allocator, Allocator.next]
  refine asks_bind (asks_ofExcept fun _ _ => trivial) fun _ _ => ?_
  cases client.strategy with
  | atomicIncrement =>
    refine asks_bind (asks_request hincrement fun _ => trivial) fun found _ => ?_
    exact asks_bind (asks_ofExcept fun _ _ => trivial) fun counter _ => trivial
  | compareAndSwap => exact asks_swap hread hswap client.rounds

end Counter

/-- The requests of an allocation. -/
theorem poses_next (name : String) :
    ((site.allocator client).next name).Asks site.Poses fun _ => True :=
  asks_next (.read name) (.swap name) (.increment name)

/-! ## Requests that look at steps -/

section Look

variable {P : Request → Prop} (hfind : ∀ f, P (.find site.steps f))
include hfind

/-- To say why nothing was updated returns no execution. -/
theorem asks_diagnose (id : Int64) (expected : Int32) :
    ((site.catalogue client).diagnose id expected).Asks P fun _ => False := by
  refine asks_bind (asks_findOne (hfind _) fun _ => trivial) fun found _ => ?_
  cases found with
  | none => trivial
  | some d => exact asks_bind (asks_ofExcept fun _ _ => trivial) fun _ _ => trivial

theorem asks_records (f : Filter) :
    ((site.catalogue client).records f).Asks P fun _ => True :=
  asks_bind (asks_request (hfind f) fun _ => trivial) fun _ _ => asks_ofExcept fun _ _ => trivial

theorem asks_get (job : JobExecution) (id : Int64) :
    ((site.catalogue client).get job id).Asks P fun _ => True := by
  refine asks_bind (asks_records hfind _) fun records _ => ?_
  split <;> trivial

theorem asks_findByJob (job : JobExecution) :
    ((site.catalogue client).findByJob job).Asks P fun _ => True :=
  asks_bind (asks_records hfind _) fun _ _ => trivial

theorem asks_getLast (jobInstance : Int64) (name : String) :
    ((site.catalogue client).getLast jobInstance name).Asks P fun _ => True :=
  asks_bind (asks_records hfind _) fun _ _ => trivial

end Look

/-! ## Requests that write steps -/

section Identify

variable {P : Request → Prop}
  (hnext : ((site.allocator client).next site.sequence).Asks P fun _ => True)
include hnext

/-- What a new record and its document are. -/
theorem asks_identify (e : StepExecution) :
    ((site.catalogue client).identify e).Asks P fun new =>
      ∃ r, SavedAs e new.1 ∧ StepRecord.ofExecution new.1 client.cap = .ok r ∧
        new.2 = r.toDocument := by
  refine asks_bind (asks_ofExcept fun _ _ => trivial) fun _ _ => ?_
  refine asks_bind hnext fun id _ => ?_
  refine asks_bind (asks_ofExcept fun r h => h) fun r h => ?_
  exact ⟨r, ⟨id, rfl⟩, h, rfl⟩

theorem asks_identifyAll (es : List StepExecution) :
    ((site.catalogue client).identifyAll es).Asks P fun new =>
      List.Forall₂ SavedAs es new.1 ∧ ∃ rs : List StepRecord,
        List.Forall₂ (fun e r => StepRecord.ofExecution e client.cap = .ok r) new.1 rs ∧
        new.2 = rs.map StepRecord.toDocument := by
  induction es with
  | nil => exact ⟨.nil, [], .nil, rfl⟩
  | cons e es ih =>
    refine asks_bind (asks_identify hnext e) fun new hnew => ?_
    obtain ⟨r, hsaved, hr, hdocument⟩ := hnew
    refine asks_bind ih fun rest hrest => ?_
    obtain ⟨hall, rs, hrs, hdocuments⟩ := hrest
    exact ⟨.cons hsaved hall, r :: rs, .cons hr hrs, by simp [hdocument, hdocuments]⟩

end Identify

/-- The next version is one more. -/
theorem nextVersion_eq_ok {id : Int64} {version next : Int32}
    (h : StepCatalogue.nextVersion id version = .ok next) :
    next.toInt = version.toInt + 1 := by
  have hlower := version.le_toInt
  unfold StepCatalogue.nextVersion at h
  split at h
  · next hlt =>
    cases h
    have hone : (1 : Int32).toInt = 1 := rfl
    rw [Int32.toInt_add, hone]
    exact Int.bmod_eq_of_le (by omega) (by omega)
  · cases h

/-- The record that is written over a version is at the next one. -/
theorem toInt_version_of_nextVersion {id : Int64} {version next : Int32} {e : StepExecution}
    {cap : Nat} {r : StepRecord} (hnext : StepCatalogue.nextVersion id version = .ok next)
    (hr : StepRecord.ofExecution (e.identified id next) cap = .ok r) :
    r.version.toInt = version.toInt + 1 := by
  have hexecution := (StepRecord.ofExecution_eq_ok hr).2
  have hversion : r.version = next := Option.some.inj (congrArg StepExecution.version hexecution)
  rw [hversion, nextVersion_eq_ok hnext]

theorem version_ne_of_nextVersion {id : Int64} {version next : Int32} {e : StepExecution}
    {cap : Nat} {r : StepRecord} (hnext : StepCatalogue.nextVersion id version = .ok next)
    (hr : StepRecord.ofExecution (e.identified id next) cap = .ok r) : r.version ≠ version := by
  have hsum := toInt_version_of_nextVersion hnext hr
  rintro rfl
  omega

/-- An update that may be written: it asks for the step at the version that was passed, to put the
record at the next version over it. -/
structure Overwrites (site : Site) (client : Client) (e : StepExecution) (id : Int64)
    (version next : Int32) (r : StepRecord) : Prop where
  id_eq : e.id = some id
  version_eq : e.version = some version
  next_eq : StepCatalogue.nextVersion id version = .ok next
  record_eq : StepRecord.ofExecution (e.identified id next) client.cap = .ok r
  update_eq : (site.catalogue client).update e = .ask (.updateFirst site.steps
      ((Filter.byId (.ofInt64 id)).and StepRecord.versionField (.ofInt32 version)) r.update)
    fun (result : UpdateResult) =>
      if result.matched = 0 then (site.catalogue client).diagnose id version
      else .done (e.identified id next)

/-- An update is refused before it asks for anything, or may be written. -/
theorem update_cases (site : Site) (client : Client) (e : StepExecution) :
    (∃ error : StoreError, error.kind = .invalidArgument ∧
      (site.catalogue client).update e = .fail error) ∨
    ∃ id version next r, Overwrites site client e id version next r := by
  obtain ⟨error, herror⟩ | ⟨_, hvalid⟩ := Except.eq_error_or_ok e.validate
  · exact .inl ⟨error, StepExecution.kind_of_validate herror, ofExcept_bind_error herror⟩
  have hupdate : (site.catalogue client).update e = _ := ofExcept_bind_ok hvalid
  obtain ⟨error, herror⟩ | ⟨id, hid⟩ := Except.eq_error_or_ok (StepExecution.need .noId e.id)
  · exact .inl ⟨error, StepExecution.kind_of_need herror, hupdate.trans (ofExcept_bind_error herror)⟩
  replace hupdate := hupdate.trans (ofExcept_bind_ok hid)
  obtain ⟨error, herror⟩ | ⟨version, hversion⟩ :=
    Except.eq_error_or_ok (StepExecution.need .noVersion e.version)
  · exact .inl ⟨error, StepExecution.kind_of_need herror, hupdate.trans (ofExcept_bind_error herror)⟩
  replace hupdate := hupdate.trans (ofExcept_bind_ok hversion)
  obtain ⟨error, herror⟩ | ⟨next, hnext⟩ :=
    Except.eq_error_or_ok (StepCatalogue.nextVersion id version)
  · exact .inl ⟨error, StepCatalogue.kind_of_nextVersion herror,
      hupdate.trans (ofExcept_bind_error herror)⟩
  replace hupdate := hupdate.trans (ofExcept_bind_ok hnext)
  obtain ⟨error, herror⟩ | ⟨r, hr⟩ :=
    Except.eq_error_or_ok (StepRecord.ofExecution (e.identified id next) client.cap)
  · exact .inl ⟨error, StepRecord.kind_of_ofExecution herror,
      hupdate.trans (ofExcept_bind_error herror)⟩
  exact .inr ⟨id, version, next, r, StepRecord.need_eq_ok.1 hid, StepRecord.need_eq_ok.1 hversion,
    hnext, hr, hupdate.trans (ofExcept_bind_ok hr)⟩

theorem asks_update (e : StepExecution) :
    ((site.catalogue client).update e).Asks site.Poses (UpdatedAs e) := by
  obtain ⟨error, -, h⟩ | ⟨id, version, next, r, hid, hversion, hnext, hr, h⟩ :=
    update_cases site client e
  · rw [h]
    trivial
  · obtain ⟨-, hexecution⟩ := StepRecord.ofExecution_eq_ok hr
    have hrid : r.id = id := Option.some.inj (congrArg StepExecution.id hexecution)
    rw [h]
    refine ⟨.update id version r hrid (toInt_version_of_nextVersion hnext hr), fun result => ?_⟩
    show Asks _ _ (if UpdateResult.matched result = 0 then _ else _)
    split
    · exact asks_mono (asks_diagnose .find id version) (fun _ h => h) fun _ h => h.elim
    · exact ⟨id, version, next, hid, hversion, nextVersion_eq_ok hnext, rfl⟩

/-- Every operation is made of these requests, and its replies belong to it. -/
theorem asks_program (operation : Operation) :
    (operation.program site client).Asks site.Poses operation.Answers := by
  cases operation with
  | save e =>
    refine asks_bind (asks_bind (asks_identify (poses_next _) e) fun new hnew => ?_) fun e h => h
    obtain ⟨r, hsaved, -, hdocument⟩ := hnew
    refine asks_bind (asks_request ?_ fun _ => trivial) fun _ _ => hsaved
    exact hdocument ▸ .insertOne r
  | saveAll es =>
    cases es with
    | none => trivial
    | some es =>
      cases es with
      | nil => exact .nil
      | cons e es =>
        refine asks_bind (asks_bind (asks_identifyAll (poses_next _) (e :: es)) fun new hnew => ?_)
          fun es h => h
        obtain ⟨hall, rs, -, hdocuments⟩ := hnew
        refine asks_bind (asks_request ?_ fun _ => trivial) fun _ _ => hall
        exact hdocuments ▸ .insertMany rs
  | update e => exact asks_bind (asks_update e) fun e h => h
  | get job id => exact asks_bind (asks_get .find job id) fun _ _ => trivial
  | findByJob job => exact asks_bind (asks_findByJob .find job) fun _ _ => trivial
  | getLast jobInstance name =>
    exact asks_bind (asks_getLast .find jobInstance name) fun _ _ => trivial
  | count jobInstance name =>
    exact asks_bind (asks_request (.count _) fun _ => trivial) fun _ _ => trivial
  | next name => exact asks_bind (poses_next name) fun _ _ => trivial
  | seed name initial note =>
    exact asks_bind (asks_seed initial note (.seed name initial note)) fun _ _ => trivial
  | read name => exact asks_bind (asks_read (.read name)) fun _ _ => trivial

/-- An operation that only looks is made of requests that only look. -/
theorem asks_looks {operation : Operation} (h : operation.looks = true) :
    (operation.program site client).Asks (fun request => Store.looks request = true)
      fun _ => True := by
  cases operation with
  | save | saveAll | update | next | seed => cases h
  | get job id => exact asks_bind (asks_get (fun _ => rfl) job id) fun _ _ => trivial
  | findByJob job => exact asks_bind (asks_findByJob (fun _ => rfl) job) fun _ _ => trivial
  | getLast jobInstance name =>
    exact asks_bind (asks_getLast (fun _ => rfl) jobInstance name) fun _ _ => trivial
  | count => exact ⟨rfl, fun _ => trivial⟩
  | read => exact asks_bind (asks_read rfl) fun _ _ => trivial

end Operation

end StepLedger

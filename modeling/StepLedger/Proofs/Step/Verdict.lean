import StepLedger.Proofs.Step.Lossless
import StepLedger.Proofs.Step.ReadAfterWrite
import StepLedger.Proofs.Store.Serving

/-!
# What an update answers

An update is decided by the record that is passed and by the version at which its step is stored
(`Store.StoredAt`). A record that may not be written is refused before anything is asked
(`update_of_unwritable`). Otherwise the version that is stored decides between success, a conflict
and a step that is not there, and only a success changes a document (`update_verdict`). The name and
the job that are passed are not written and decide nothing (`StepCatalogue.update_under`).
-/

namespace StepLedger

open Program

/-! ## Records that may not be written -/

namespace StepExecution

/-- What a record may lack, or have too much of, in order to be written over a version. -/
def Unwritable (e : StepExecution) : Prop :=
  e.name = none ∨ e.startTime = none ∨ e.status = none ∨ e.id = none ∨ e.version = none ∨
    (∃ counter ∈ e.counters.named, Counters.limit < counter.2) ∨
    e.version = some Int32.maxValue

instance (e : StepExecution) : Decidable e.Unwritable :=
  inferInstanceAs (Decidable (e.name = none ∨ _))

theorem validate_eq_ok {e : StepExecution} : e.validate = .ok () ↔
    e.name ≠ none ∧ e.startTime ≠ none ∧ e.status ≠ none ∧
      ∀ counter ∈ e.counters.named, counter.2 ≤ Counters.limit := by
  rw [← Counters.check_eq_ok, validate, Except.map_eq_ok, required]
  simp only [Except.bind_eq_ok, StepRecord.need_eq_ok, and_true, Option.ne_none_iff_exists',
    pure, Except.pure, Except.ok.injEq]
  constructor
  · rintro ⟨_, name, hname, start, hstart, status, hstatus, _, hcheck, -⟩
    exact ⟨⟨name, hname⟩, ⟨start, hstart⟩, ⟨status, hstatus⟩, hcheck⟩
  · rintro ⟨⟨name, hname⟩, ⟨start, hstart⟩, ⟨status, hstatus⟩, hcheck⟩
    exact ⟨_, name, hname, start, hstart, status, hstatus, (), hcheck, rfl⟩

end StepExecution

namespace StepCatalogue

/-- There is a version after every one but the last. -/
theorem exists_nextVersion_iff {id : Int64} {version : Int32} :
    (∃ next, nextVersion id version = .ok next) ↔ version ≠ Int32.maxValue := by
  have hupper := version.toInt_lt
  have hmax : Int32.maxValue.toInt = 2147483647 := rfl
  have hlast : version = Int32.maxValue ↔ version.toInt = 2147483647 := by
    rw [← hmax, Int32.toInt_inj]
  rw [ne_eq, hlast, nextVersion]
  split
  · exact ⟨fun _ => by omega, fun _ => ⟨_, rfl⟩⟩
  · exact ⟨nofun, fun h => absurd h (by omega)⟩

end StepCatalogue

namespace Operation

variable {site : Site} {client : Client} {s s' : Store} {e : StepExecution}

/-- A record that may not be written is refused. -/
theorem update_of_unwritable (h : e.Unwritable) (site : Site) (client : Client) :
    ∃ cause, (site.catalogue client).update e = .fail (.invalidArgument cause) := by
  obtain ⟨error, hkind, hfail⟩ | ⟨id, version, next, r, hid, hversion, hnext, hr, -⟩ :=
    update_cases site client e
  · cases error with
    | invalidArgument cause => exact ⟨cause, hfail⟩
    | _ => cases hkind
  · obtain ⟨-, hexecution⟩ := StepRecord.ofExecution_eq_ok hr
    have hcounters : r.counters = e.counters := congrArg StepExecution.counters hexecution
    have hcheck := Counters.check_eq_ok.1 (StepRecord.check_of_ofExecution hr)
    rw [hcounters] at hcheck
    have hlast := StepCatalogue.exists_nextVersion_iff.1 ⟨next, hnext⟩
    rcases h with h | h | h | h | h | ⟨counter, hcounter, hlimit⟩ | h
    · exact nomatch (congrArg StepExecution.name hexecution).trans h
    · exact nomatch (congrArg StepExecution.startTime hexecution).trans h
    · exact nomatch (congrArg StepExecution.status hexecution).trans h
    · exact nomatch hid.symm.trans h
    · exact nomatch hversion.symm.trans h
    · exact absurd hlimit (UInt32.not_lt.2 (hcheck counter hcounter))
    · exact absurd (Option.some.inj (hversion.symm.trans h)) hlast

/-- Any other record is written over the version that it shows, if the step is at it. -/
theorem update_of_writable (h : ¬ e.Unwritable) (site : Site) (client : Client) :
    ∃ id version next r, Overwrites site client e id version next r := by
  simp only [StepExecution.Unwritable, not_or, not_exists, not_and, UInt32.not_lt] at h
  obtain ⟨hname, hstart, hstatus, hid, hversion, hcounters, hlast⟩ := h
  obtain ⟨id, hid⟩ := Option.ne_none_iff_exists'.1 hid
  obtain ⟨version, hversion⟩ := Option.ne_none_iff_exists'.1 hversion
  have hvalid := StepExecution.validate_eq_ok.2 ⟨hname, hstart, hstatus, hcounters⟩
  obtain ⟨next, hnext⟩ : ∃ next, StepCatalogue.nextVersion id version = .ok next :=
    StepCatalogue.exists_nextVersion_iff.2 fun heq => hlast (heq ▸ hversion)
  obtain ⟨r, hr, -⟩ := StepRecord.exists_ofExecution (e := e.identified id next) rfl rfl hvalid
    client.cap
  refine ⟨id, version, next, r, hid, hversion, hnext, hr, ?_⟩
  exact (ofExcept_bind_ok hvalid).trans <| (ofExcept_bind_ok (StepRecord.need_eq_ok.2 hid)).trans <|
    (ofExcept_bind_ok (StepRecord.need_eq_ok.2 hversion)).trans <|
    (ofExcept_bind_ok hnext).trans (ofExcept_bind_ok hr)

end Operation

/-! ## Where the step is stored -/

namespace Store

/-- A document with the id is stored at the version. -/
def StoredAt (s : Store) (steps : String) (id : Int64) (version : Int32) : Prop :=
  ∃ d ∈ (s.view steps).documents, d.get? idField = some (.number (.ofInt64 id)) ∧
    d.get? StepRecord.versionField = some (.number (.ofInt32 version))

/-- A document with the id is stored. -/
def Has (s : Store) (steps : String) (id : Int64) : Prop :=
  ∃ d ∈ (s.view steps).documents, d.get? idField = some (.number (.ofInt64 id))

variable {s s' : Store} {steps : String} {id : Int64} {version actual : Int32}

/-- Among steps, what is stored under an id is at some version. -/
theorem has_iff (h : s.HoldsSteps steps) : s.Has steps id ↔ ∃ version, s.StoredAt steps id version := by
  constructor
  · rintro ⟨d, hd, hid⟩
    obtain ⟨r, rfl, -⟩ := exists_record (h d hd) hid
    exact ⟨r.version, _, hd, hid, get?_version_toDocument r⟩
  · rintro ⟨version, d, hd, hid, -⟩
    exact ⟨d, hd, hid⟩

/-- A step is stored at one version only. -/
theorem StoredAt.unique (hs : s.WellFormed) (h : s.StoredAt steps id version)
    (h' : s.StoredAt steps id actual) : actual = version := by
  obtain ⟨d, hd, hid, hversion⟩ := h
  obtain ⟨d', hd', hid', hversion'⟩ := h'
  obtain ⟨i, hi⟩ := List.getElem?_of_mem hd
  obtain ⟨j, hj⟩ := List.getElem?_of_mem hd'
  have hkey : d.key? = d'.key? := congrArg (Option.map Document.keyText) (hid.trans hid'.symm)
  have hplace : i = j := (hs steps).1.index_eq hi hj hkey
  rw [← hplace, hi] at hj
  obtain rfl := Option.some.inj hj
  exact Json.Value.ofInt32_inj.1 (Option.some.inj (hversion'.symm.trans hversion))

theorem Alike.storedAt_iff (h : s.Alike s') :
    s'.StoredAt steps id version ↔ s.StoredAt steps id version := by
  rw [StoredAt, StoredAt, h steps]

end Store

/-! ## What is answered -/

namespace Operation

variable {site : Site} {client : Client} {s : Store} {e : StepExecution} {id : Int64}
  {version actual : Int32}

/-- The first match is looked up. -/
theorem run_findOne {steps : String} (hcheck : s.check steps = .ok ()) (f : Filter) :
    (findOne steps f).run Store.answer s = (.returned ((s.view steps).find f).head?, s) := by
  have hanswer : Store.answer s (.find steps f) = (.ok ((s.view steps).find f), s) :=
    Store.find_of_check hcheck f
  exact run_ask_ok hanswer

section Diagnose

variable (hcheck : s.check site.steps = .ok ()) (expected : Int32)
include hcheck

/-- Why nothing was updated is seen from the document with the id. -/
theorem run_diagnose_found {d : Document} {stored : StepRecord}
    (hfound : ((s.view site.steps).find (.byId (.ofInt64 id))).head? = some d)
    (hd : StepRecord.ofDocument d = .ok stored) :
    ((site.catalogue client).diagnose id expected).run Store.answer s =
      (.failed (.optimisticLockConflict id.toInt expected.toInt stored.version.toInt), s) := by
  show (Program.bind (findOne site.steps (.byId (.ofInt64 id))) _).run Store.answer s = _
  rw [run_bind, run_findOne hcheck, hfound]
  show (Program.bind (ofExcept ((StepRecord.ofDocument d).mapError .serialization)) _).run
    Store.answer s = _
  rw [hd]
  rfl

/-- Where the step is stored at another version, this is what is reported. -/
theorem run_diagnose_conflict (hs : s.WellFormed) (hsteps : s.HoldsSteps site.steps)
    (hstored : s.StoredAt site.steps id actual) :
    ((site.catalogue client).diagnose id expected).run Store.answer s =
      (.failed (.optimisticLockConflict id.toInt expected.toInt actual.toInt), s) := by
  obtain ⟨d, hd, hid, hversion⟩ := hstored
  obtain ⟨r, rfl, -⟩ := Store.exists_record (hsteps d hd) hid
  rw [Store.get?_version_toDocument] at hversion
  obtain rfl := Json.Value.ofInt32_inj.1 (Option.some.inj hversion)
  obtain ⟨i, hi⟩ := List.getElem?_of_mem hd
  have hexact := Json.exact_ofInt64 id
  have hfirst := (Collection.first?_eq_some_iff (hs site.steps).1 (Filter.idValue?_byId _)
    hexact).2 ⟨hi, (Filter.selects_byId_iff hexact).2 hid⟩
  have hfound := Collection.head?_find_of_pinned (hs site.steps).1 (Filter.idValue?_byId _) hexact
    (f := .byId (.ofInt64 id))
  rw [hfirst] at hfound
  exact (run_diagnose_found hcheck expected hfound (StepRecord.ofDocument_toDocument r) :)

/-- Where no document has the id, the step is reported missing. -/
theorem run_diagnose_missing (hnone : ¬ s.Has site.steps id) :
    ((site.catalogue client).diagnose id expected).run Store.answer s =
      (.failed (.notFound (.step id.toInt)), s) := by
  have hfind : (s.view site.steps).find (.byId (.ofInt64 id)) = [] :=
    List.filter_eq_nil_iff.2 fun d hd hsel =>
      hnone ⟨d, hd, (Filter.selects_byId_iff (Json.exact_ofInt64 id)).1 hsel⟩
  show (Program.bind (findOne site.steps (.byId (.ofInt64 id))) _).run Store.answer s = _
  rw [run_bind, run_findOne hcheck, hfind]
  rfl

end Diagnose

/-! ## The request -/

section Request

variable (hs : s.WellFormed) (hserves : s.Serves site.steps) (r : StepRecord)
include hs hserves

/-- A step at the version is found. -/
theorem updateFirst_of_storedAt (hsteps : s.HoldsSteps site.steps)
    (hstored : s.StoredAt site.steps id version) : ∃ n s',
      Store.answer s (.updateFirst site.steps ((Filter.byId (.ofInt64 id)).and
        StepRecord.versionField (.ofInt32 version)) r.update) = (.ok ⟨1, n⟩, s') := by
  obtain ⟨d, hd, hid, hversion⟩ := hstored
  obtain ⟨before, rfl, -⟩ := Store.exists_record (hsteps d hd) hid
  obtain ⟨i, hi⟩ := List.getElem?_of_mem hd
  have hsel := (Filter.selects_byId_and_iff (Json.exact_ofInt64 id)
    (Json.exact_ofInt32 version)).2 ⟨hid, hversion⟩
  have hfirst := (Collection.first?_eq_some_iff (hs site.steps).1
    (Filter.idValue?_byId_and _ StepRecord.versionField _) (Json.exact_ofInt64 id)).2 ⟨hi, hsel⟩
  have hop : ∃ n c, (s.view site.steps).updateFirst ((Filter.byId (.ofInt64 id)).and
      StepRecord.versionField (.ofInt32 version)) r.update = .ok (⟨1, n⟩, c) := by
    rw [Collection.updateFirst, hfirst]
    simp only [StepRecord.apply_update, Except.ok_bind]
    exact ⟨_, _, rfl⟩
  obtain ⟨n, c, hop⟩ := hop
  obtain ⟨s', hupdate⟩ := hserves.updateFirst hs r.isEmpty_update hop
  exact ⟨n, s', hupdate⟩

/-- Where no step is at the version, none is found and nothing changes. -/
theorem updateFirst_of_not_storedAt (hnone : ¬ s.StoredAt site.steps id version) :
    ∃ s', s.Alike s' ∧ s'.check site.steps = .ok () ∧
      Store.answer s (.updateFirst site.steps ((Filter.byId (.ofInt64 id)).and
        StepRecord.versionField (.ofInt32 version)) r.update) = (.ok ⟨0, 0⟩, s') := by
  have hfirst := (Collection.first?_eq_none_iff (hs site.steps).1
    (Filter.idValue?_byId_and _ StepRecord.versionField (.ofInt32 version))
    (Json.exact_ofInt64 id)).2 fun d hd => Bool.eq_false_iff.2 fun hsel =>
      hnone ⟨d, hd, (Filter.selects_byId_and_iff (Json.exact_ofInt64 id)
        (Json.exact_ofInt32 version)).1 hsel⟩
  have hop : (s.view site.steps).updateFirst ((Filter.byId (.ofInt64 id)).and
      StepRecord.versionField (.ofInt32 version)) r.update = .ok (⟨0, 0⟩, s.view site.steps) := by
    rw [Collection.updateFirst, hfirst]
  obtain ⟨s', hupdate⟩ := hserves.updateFirst hs r.isEmpty_update hop
  obtain ⟨-, -, halike⟩ | ⟨i, before, after, hfound, -⟩ := Store.updateFirst_ok hs hupdate
  · exact ⟨s', halike, Store.check_of_updateFirst hupdate, hupdate⟩
  · rw [hfirst] at hfound
    cases hfound

end Request

/-! ## The whole update -/

/-- How an update of a record that may be written ends: the step is stored at the version that is
passed and is written over, it is stored at another and this is reported, or it is not stored. -/
inductive Verdict (s : Store) (steps : String) (e : StepExecution) (id : Int64) (version : Int32) :
    Program.Outcome StepExecution × Store → Prop
  | written {next : Int32} {s' : Store} (stored : s.StoredAt steps id version)
    (successor : next.toInt = version.toInt + 1) :
    Verdict s steps e id version (.returned (e.identified id next), s')
  | conflict {actual : Int32} {s' : Store} (stored : s.StoredAt steps id actual)
    (other : actual ≠ version) (same : s.Alike s') : Verdict s steps e id version
      (.failed (.optimisticLockConflict id.toInt version.toInt actual.toInt), s')
  | missing {s' : Store} (absent : ¬ s.Has steps id) (same : s.Alike s') :
    Verdict s steps e id version (.failed (.notFound (.step id.toInt)), s')

namespace Verdict

variable {steps : String} {ended : Program.Outcome StepExecution × Store}
  (h : Verdict s steps e id version ended)
include h

theorem returned_iff (hs : s.WellFormed) :
    (∃ updated, ended.1 = .returned updated) ↔ s.StoredAt steps id version := by
  cases h with
  | written stored => exact ⟨fun _ => stored, fun _ => ⟨_, rfl⟩⟩
  | conflict stored other =>
    refine ⟨?_, fun h => absurd (h.unique hs stored) other⟩
    rintro ⟨_, ⟨⟩⟩
  | missing absent =>
    refine ⟨?_, fun ⟨d, hd, hid, _⟩ => absurd ⟨d, hd, hid⟩ absent⟩
    rintro ⟨_, ⟨⟩⟩

theorem conflict_iff (hs : s.WellFormed) {key expected actual : Int} :
    ended.1 = .failed (.optimisticLockConflict key expected actual) ↔
      key = id.toInt ∧ expected = version.toInt ∧
        ∃ stored, s.StoredAt steps id stored ∧ stored ≠ version ∧ stored.toInt = actual := by
  cases h with
  | written stored =>
    exact ⟨nofun, fun ⟨_, _, _, hstored, hother, _⟩ => absurd (stored.unique hs hstored) hother⟩
  | @conflict found _ stored other =>
    constructor
    · rintro ⟨⟩
      exact ⟨rfl, rfl, found, stored, other, rfl⟩
    · rintro ⟨rfl, rfl, found', hstored, -, rfl⟩
      rw [stored.unique hs hstored]
  | missing absent =>
    exact ⟨nofun, fun ⟨_, _, _, ⟨d, hd, hid, _⟩, _⟩ => absurd ⟨d, hd, hid⟩ absent⟩

theorem missing_iff {what : Absence} : ended.1 = .failed (.notFound what) ↔
    what = .step id.toInt ∧ ¬ s.Has steps id := by
  cases h with
  | written stored | conflict stored =>
    obtain ⟨d, hd, hid, -⟩ := stored
    exact ⟨nofun, fun ⟨_, absent⟩ => absurd ⟨d, hd, hid⟩ absent⟩
  | missing absent =>
    constructor
    · rintro ⟨⟩
      exact ⟨rfl, absent⟩
    · rintro ⟨rfl, -⟩
      rfl

theorem exhaustive : (∃ updated, ended.1 = .returned updated) ∨
    (∃ key expected actual, ended.1 = .failed (.optimisticLockConflict key expected actual)) ∨
    ∃ what, ended.1 = .failed (.notFound what) := by
  cases h with
  | written => exact .inl ⟨_, rfl⟩
  | conflict => exact .inr (.inl ⟨_, _, _, rfl⟩)
  | missing => exact .inr (.inr ⟨_, rfl⟩)

theorem alike_of_failed {error : StoreError} (herror : ended.1 = .failed error) :
    s.Alike ended.2 := by
  cases h with
  | written => cases herror
  | conflict _ _ same | missing _ same => exact same

end Verdict

/-- An update of a record that may be written ends in one of these ways. -/
theorem run_update (h : ¬ e.Unwritable) (hs : s.WellFormed) (hsteps : s.HoldsSteps site.steps)
    (hserves : s.Serves site.steps) (client : Client) :
    ∃ id version, e.id = some id ∧ e.version = some version ∧ Verdict s site.steps e id version
      (((site.catalogue client).update e).run Store.answer s) := by
  obtain ⟨id, version, next, r, hid, hversion, hnext, -, hupdate⟩ := update_of_writable h site client
  refine ⟨id, version, hid, hversion, ?_⟩
  by_cases hstored : s.StoredAt site.steps id version
  · obtain ⟨n, s', hanswer⟩ := updateFirst_of_storedAt hs hserves r hsteps hstored
    rw [run_of_eq_ask hupdate hanswer]
    exact .written hstored (nextVersion_eq_ok hnext)
  · obtain ⟨s', halike, hcheck, hanswer⟩ := updateFirst_of_not_storedAt hs hserves r hstored
    rw [run_of_eq_ask hupdate hanswer]
    -- nothing was written, so that the look at the step finds what was there before
    show Verdict _ _ _ _ _ (((site.catalogue client).diagnose id version).run Store.answer s')
    by_cases hhas : s.Has site.steps id
    · obtain ⟨actual, hactual⟩ := (Store.has_iff hsteps).1 hhas
      have hother : actual ≠ version := by
        rintro rfl
        exact hstored hactual
      rw [run_diagnose_conflict hcheck version (halike.wellFormed hs) (hsteps.of_alike halike)
        (halike.storedAt_iff.2 hactual)]
      exact .conflict hactual hother halike
    · rw [run_diagnose_missing hcheck version (by rwa [Store.Has, halike site.steps])]
      exact .missing hhas halike

/-- Where the store does not admit the name of the collection, the update is refused over it. -/
theorem run_update_of_name (h : ¬ e.Unwritable) (hopen : s.closed = false)
    (hname : Store.isName site.steps = false) (client : Client) :
    ((site.catalogue client).update e).run Store.answer s =
      (.failed (.invalidArgument (.collectionName site.steps)), s) := by
  obtain ⟨id, version, next, r, hover⟩ := update_of_writable h site client
  have hcheck : s.check site.steps = .error (.invalidArgument (.collectionName site.steps)) := by
    rw [Store.check, hopen, hname]
    rfl
  have hanswer : Store.answer s (.updateFirst site.steps ((Filter.byId (.ofInt64 id)).and
      StepRecord.versionField (.ofInt32 version)) r.update) =
        (.error (.invalidArgument (.collectionName site.steps)), s) := by
    rw [Store.answer, Store.updateFirst_eq_mutate _ _ _ r.isEmpty_update, Store.mutate, hcheck]
    rfl
  exact failed_of_eq_ask hover.update_eq hanswer

end Operation

/-! ## What is not written -/

/-- The same execution under another name and another run of a job. -/
def StepExecution.under (e : StepExecution) (name : String) (job : JobExecution) : StepExecution :=
  { e with name := some name, job := job }

section Under

variable {e : StepExecution} (hname : e.name ≠ none) (name : String) (job : JobExecution)
include hname

/-- Under another name the execution has what it must have, if it had a name. -/
theorem StepExecution.required_under : (e.under name job).required =
    e.required.map fun required => { required with name := name } := by
  obtain ⟨known, hknown⟩ := Option.ne_none_iff_exists'.1 hname
  rw [required, required, hknown]
  show (need _ e.startTime >>= fun _ => need _ e.status >>= fun _ => e.counters.check >>= _) = _
  cases need .noStartTime e.startTime with
  | error => rfl
  | ok =>
    cases need .noStatus e.status with
    | error => rfl
    | ok => cases e.counters.check <;> rfl

theorem StepExecution.validate_under : (e.under name job).validate = e.validate := by
  rw [validate, validate, required_under hname]
  cases e.required <;> rfl

/-- The record of the execution under another name and job differs in them only. -/
theorem StepRecord.ofExecution_under (cap : Nat) : ofExecution (e.under name job) cap =
    (ofExecution e cap).map fun r => { r with name := name, job := job } := by
  rw [ofExecution, ofExecution, StepExecution.required_under hname]
  generalize e.required = required
  obtain ⟨id, version⟩ := e
  cases required with
  | error => rfl
  | ok required => cases id <;> cases version <;> rfl

omit hname in
/-- Updates of one version that write the same end alike, but for the name and job of what they
return. -/
theorem Site.write_under (site : Site) (client : Client) (id : Int64) (version next : Int32)
    {u u' : Update} (hsame : u' = u) :
    (Program.ask (.updateFirst site.steps ((Filter.byId (.ofInt64 id)).and StepRecord.versionField
        (.ofInt32 version)) u') fun (result : UpdateResult) =>
      if result.matched = 0 then (site.catalogue client).diagnose id version
      else .done ((e.under name job).identified id next)) =
    (Program.ask (.updateFirst site.steps ((Filter.byId (.ofInt64 id)).and StepRecord.versionField
        (.ofInt32 version)) u) fun (result : UpdateResult) =>
      if result.matched = 0 then (site.catalogue client).diagnose id version
      else .done (e.identified id next)).bind fun updated => .done (updated.under name job) := by
  subst hsame
  refine congrArg (Program.ask _) (funext fun (result : UpdateResult) => ?_)
  have hdiagnose : ((site.catalogue client).diagnose id version).Asks (fun _ => True) fun _ => False :=
    Operation.asks_diagnose (fun _ => trivial) id version
  by_cases hnone : result.matched = 0
  · simp only [hnone, if_true]
    exact (hdiagnose.bind_eq_self _).symm
  · simp only [hnone, if_false]
    rfl

/-- An update under another name and job asks the same, and returns what was passed. -/
theorem Site.update_under (site : Site) (client : Client) :
    (site.catalogue client).update (e.under name job) =
      ((site.catalogue client).update e).bind fun updated => .done (updated.under name job) := by
  show Program.bind (ofExcept (e.under name job).validate) _ = _
  rw [StepExecution.validate_under hname]
  refine bind_eq_bind_bind _ fun _ => bind_eq_bind_bind _ fun id => bind_eq_bind_bind _ fun version =>
    bind_eq_bind_bind _ fun next => ?_
  show Program.bind (ofExcept (StepRecord.ofExecution ((e.identified id next).under name job)
    client.cap)) _ = _
  rw [StepRecord.ofExecution_under (e := e.identified id next) hname]
  show _ = Program.bind (Program.bind (ofExcept (StepRecord.ofExecution (e.identified id next)
    client.cap)) _) _
  cases StepRecord.ofExecution (e.identified id next) client.cap with
  | error => rfl
  | ok r =>
    exact write_under name job site client id version next
      (StepRecord.update_laidOver r { r with name := name, job := job })

end Under

/-! ## The verdict -/

/-- What an update answers, in every open store that operations lead to and whose collection of steps
can be written.
A record that may not be written is refused, and nothing at all changes. So is any record if the store
does not admit the name of the collection. Otherwise the update succeeds exactly if a document with
the id is stored at the version that was passed, it reports a conflict exactly if one is stored at
another version, and it reports that the step is missing exactly if none is stored; it ends in no
other way. Where it fails no document changes. A name is needed, but which it is plays no part in any
of this, nor does the job. -/
theorem update_verdict {site : Site} {s : Store} (hs : site.Leads s) (hopen : s.closed = false)
    (hwrites : Store.isName site.steps = true → ∀ archive, s.archive = some archive →
      archive.Ready site.steps ∧ archive.disk.refused = none)
    (client : Client) (e : StepExecution) :
    let ended := ((site.catalogue client).update e).run Store.answer s
    (e.Unwritable → ∃ cause, ended = (.failed (.invalidArgument cause), s)) ∧
    (¬ e.Unwritable → Store.isName site.steps = false →
      ended = (.failed (.invalidArgument (.collectionName site.steps)), s)) ∧
    (¬ e.Unwritable → Store.isName site.steps = true →
      ∃ id version, e.id = some id ∧ e.version = some version ∧
        ((∃ updated, ended.1 = .returned updated) ↔ s.StoredAt site.steps id version) ∧
        (∀ key expected actual,
          ended.1 = .failed (.optimisticLockConflict key expected actual) ↔
            key = id.toInt ∧ expected = version.toInt ∧
            ∃ stored, s.StoredAt site.steps id stored ∧ stored ≠ version ∧ stored.toInt = actual) ∧
        (∀ what, ended.1 = .failed (.notFound what) ↔
          what = .step id.toInt ∧ ¬ s.Has site.steps id) ∧
        ((∃ updated, ended.1 = .returned updated) ∨
          (∃ key expected actual,
            ended.1 = .failed (.optimisticLockConflict key expected actual)) ∨
          ∃ what, ended.1 = .failed (.notFound what))) ∧
    (∀ error, ended.1 = .failed error → s.Alike ended.2) ∧
    (e.name ≠ none → ∀ name job, ((site.catalogue client).update (e.under name job)).run Store.answer s =
      (ended.1.map (·.under name job), ended.2)) := by
  intro ended
  obtain ⟨hwf, hsteps⟩ := hs.holdsSteps
  have hrefused : e.Unwritable → ∃ cause, ended = (.failed (.invalidArgument cause), s) := by
    intro h
    obtain ⟨cause, hfail⟩ := Operation.update_of_unwritable h site client
    exact ⟨cause, congrArg (run Store.answer s) hfail⟩
  have hmisnamed : ¬ e.Unwritable → Store.isName site.steps = false →
      ended = (.failed (.invalidArgument (.collectionName site.steps)), s) :=
    fun h hname => Operation.run_update_of_name h hopen hname client
  have hverdict : ¬ e.Unwritable → Store.isName site.steps = true → ∃ id version,
      e.id = some id ∧ e.version = some version ∧
        Operation.Verdict s site.steps e id version ended := fun h hname =>
    Operation.run_update h hwf hsteps ⟨Store.check_eq_ok.2 ⟨hopen, hname⟩,
      fun archive harchive => (hwrites hname archive harchive).1,
      fun archive harchive => (hwrites hname archive harchive).2⟩ client
  refine ⟨hrefused, hmisnamed, fun h hname => ?_, fun error herror => ?_, fun hname name job => ?_⟩
  · obtain ⟨id, version, hid, hversion, hended⟩ := hverdict h hname
    exact ⟨id, version, hid, hversion, hended.returned_iff hwf, fun _ _ _ => hended.conflict_iff hwf,
      fun _ => hended.missing_iff, hended.exhaustive⟩
  · by_cases h : e.Unwritable
    · obtain ⟨cause, hended⟩ := hrefused h
      rw [hended]
      exact .refl s
    · cases hname : Store.isName site.steps with
      | false =>
        rw [hmisnamed h hname]
        exact .refl s
      | true =>
        obtain ⟨id, version, -, -, hended⟩ := hverdict h hname
        exact hended.alike_of_failed herror
  · rw [Site.update_under hname, run_bind]
    show Program.Outcome.andThen Store.answer _ ended = _
    obtain ⟨outcome, s'⟩ := ended
    cases outcome <;> rfl

/-- The conflict and the missing step that updates of other records report are so. -/
theorem update_verdict_of_opened :
    Site.desk.Leads .opened ∧ Store.opened.closed = false ∧ Store.opened.archive = none ∧
      ¬ (StepExecution.opening.identified 1 5).Unwritable ∧
      (((Site.desk.catalogue .clerk).update (.identified .opening 1 5)).run Store.answer
        .opened).1 = .failed (.optimisticLockConflict 1 5 0) ∧
      (∃ stored, Store.opened.StoredAt "steps" 1 stored ∧ stored ≠ 5 ∧ stored.toInt = 0) ∧
      (((Site.desk.catalogue .clerk).update (.identified .opening 9 0)).run Store.answer
        .opened).1 = .failed (.notFound (.step 9)) ∧ ¬ Store.opened.Has "steps" 9 := by
  have hconflict : (((Site.desk.catalogue .clerk).update (.identified .opening 1 5)).run Store.answer
      .opened).1 = .failed (.optimisticLockConflict 1 5 0) := by decide +kernel
  have hmissing : (((Site.desk.catalogue .clerk).update (.identified .opening 9 0)).run Store.answer
      .opened).1 = .failed (.notFound (.step 9)) := by decide +kernel
  have hopen : Store.opened.closed = false := by decide +kernel
  have hmemory : Store.opened.archive = none := by rfl
  have hname : Store.isName Site.desk.steps = true := by decide +kernel
  have hwrites : Store.isName Site.desk.steps = true → ∀ archive, Store.opened.archive = some archive →
      archive.Ready Site.desk.steps ∧ archive.disk.refused = none := by
    intro _ archive harchive
    rw [hmemory] at harchive
    cases harchive
  have hwritable : ¬ (StepExecution.opening.identified 1 5).Unwritable := by decide
  have hwritable' : ¬ (StepExecution.opening.identified 9 0).Unwritable := by decide
  obtain ⟨-, -, hended, -⟩ := update_verdict Store.leads_opened hopen hwrites .clerk
    (.identified .opening 1 5)
  obtain ⟨id, version, hid, hversion, -, hiff, -⟩ := hended hwritable hname
  obtain ⟨-, -, hended', -⟩ := update_verdict Store.leads_opened hopen hwrites .clerk
    (.identified .opening 9 0)
  obtain ⟨id', version', hid', hversion', -, -, hiff', -⟩ := hended' hwritable' hname
  cases hid
  cases hversion
  cases hid'
  exact ⟨Store.leads_opened, hopen, hmemory, hwritable, hconflict, ((hiff 1 5 0).1 hconflict).2.2,
    hmissing, ((hiff' _).1 hmissing).2⟩

/-- Steps in a collection whose name no store admits. -/
def Site.spaced : Site := ⟨"batch steps", "counters", "step"⟩

/-- Where the store does not admit the name of the collection, a step that is not stored is not
reported missing. -/
theorem update_refused_over_name :
    Site.spaced.Leads .inMemory ∧ Store.inMemory.closed = false ∧ Store.inMemory.archive = none ∧
      ¬ (StepExecution.opening.identified 1 0).Unwritable ∧ ¬ Store.inMemory.Has "batch steps" 1 ∧
      ((Site.spaced.catalogue .clerk).update (.identified .opening 1 0)).run Store.answer .inMemory =
        (.failed (.invalidArgument (.collectionName "batch steps")), .inMemory) ∧
      (((Site.spaced.catalogue .clerk).update (.identified .opening 1 0)).run Store.answer
        .inMemory).1 ≠ .failed (.notFound (.step 1)) := by
  have hwritable : ¬ (StepExecution.opening.identified 1 0).Unwritable := by decide
  have hopen : Store.inMemory.closed = false := rfl
  have hname : Store.isName Site.spaced.steps = false := by decide
  have hended := Operation.run_update_of_name hwritable hopen hname .clerk
  refine ⟨⟨.inMemory, [], .inMemory, ?_, rfl⟩, rfl, rfl, hwritable, ?_, hended, ?_⟩
  · rintro d ⟨⟩
  · rintro ⟨d, ⟨⟩, -⟩
  · rw [hended]
    nofun

end StepLedger

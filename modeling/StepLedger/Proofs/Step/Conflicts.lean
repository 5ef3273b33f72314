import StepLedger.Proofs.Step.Answering
import StepLedger.Proofs.Step.NoLostUpdate

/-!
# Conflicts that are reported

An update that finds no step at its version looks the step up to say why, and others may write in
between. Versions of steps never fall, and an execution that a call has returned shows a version that
the step has reached (`Store.Bears`). So if clients update only what calls have returned to them, the
step is there when it is looked up, at a later version than theirs
(`World.conflicts_are_truthful`).
-/

namespace StepLedger

open Program

/-! ## Versions that steps have reached -/

namespace Store

/-- The step with an id is stored at this version or a later one. -/
def Reached (s : Store) (steps : String) (id : Int64) (version : Int) : Prop :=
  ∃ r, s.step? steps id = some r ∧ version ≤ r.version.toInt

/-- No step of a store is gone or at an earlier version in another. -/
def Grows (s s' : Store) (steps : String) : Prop :=
  ∀ id version, s.Reached steps id version → s'.Reached steps id version

/-- The step of an execution has reached the version that the execution shows. -/
def Bears (s : Store) (steps : String) (e : StepExecution) : Prop :=
  ∃ id version, e.id = some id ∧ e.version = some version ∧ s.Reached steps id version.toInt

variable {s s' s'' : Store} {steps : String}

theorem Grows.refl (s : Store) (steps : String) : s.Grows s steps := fun _ _ h => h

theorem Grows.trans (h : s.Grows s' steps) (h' : s'.Grows s'' steps) : s.Grows s'' steps :=
  fun id version hreached => h' id version (h id version hreached)

theorem Alike.grows (h : s.Alike s') (steps : String) : s.Grows s' steps := by
  rintro id version ⟨r, hr, hle⟩
  refine ⟨r, ?_, hle⟩
  rw [step?, h steps]
  exact hr

theorem Bears.grows {e : StepExecution} (h : s.Bears steps e) (hgrows : s.Grows s' steps) :
    s'.Bears steps e := by
  obtain ⟨id, version, hid, hversion, hreached⟩ := h
  exact ⟨id, version, hid, hversion, hgrows id version.toInt hreached⟩

theorem Shows.bears {e : StepExecution} (h : s.Shows steps e) : s.Bears steps e := by
  obtain ⟨r, hr, hid, hversion⟩ := h
  exact ⟨r.id, r.version, hid, hversion, r, hr, Int.le_refl _⟩

end Store

/-- What is entered into a ledger takes no step away and none to an earlier version. -/
theorem Entered.grows {site : Site} {i : Nat} {what : Command} {held held' : Nat → List Int64}
    {value value' : Int64} {records records' : List StepRecord} {left : Program Reply}
    (h : Entered site i what held value records left held' value' records') {s s' : Store}
    (hledger : Ledger site s value records) (hledger' : Ledger site s' value' records') :
    s.Grows s' site.steps := by
  rintro id version ⟨_, hr, hle⟩
  obtain ⟨r, hmem, rfl, rfl⟩ := hledger.mem_of_step? hr
  cases h with
  | quiet | allocated => exact ⟨_, hledger'.step?_of_mem hmem, hle⟩
  | inserted => exact ⟨_, hledger'.step?_of_mem (List.mem_append_left _ hmem), hle⟩
  | @replaced k before written _ _ place _ _ _ successor =>
    obtain ⟨j, hj⟩ := List.mem_iff_getElem?.1 hmem
    obtain ⟨hk, -⟩ := List.getElem?_eq_some_iff.1 place
    by_cases heq : k = j
    · subst heq
      obtain rfl : before = r := Option.some.inj (place.symm.trans hj)
      have hstep := hledger'.step?_of_mem (List.mem_set hk (written.laidOver before))
      refine ⟨_, hstep, ?_⟩
      have hstored : version ≤ before.version.toInt := hle
      show version ≤ written.version.toInt
      omega
    · rw [← List.getElem?_set_ne heq (a := written.laidOver before)] at hj
      exact ⟨_, hledger'.step?_of_mem (List.mem_of_getElem? hj), hle⟩

/-- What is returned as written shows versions that are stored. -/
theorem Entered.bears_written {site : Site} {i : Nat} {what : Command}
    {held held' : Nat → List Int64} {value value' : Int64} {records records' : List StepRecord}
    {reply : Reply}
    (h : Entered site i what held value records (.done reply) held' value' records') {s' : Store}
    (hledger' : Ledger site s' value' records') : ∀ e ∈ reply.written, s'.Bears site.steps e := by
  have hstored : ∀ r ∈ records', ∀ e cap, r.Shows e cap → s'.Bears site.steps e :=
    fun r hr e cap hshows =>
      ⟨r.id, r.version, hshows.id, hshows.version, _, hledger'.step?_of_mem hr, Int.le_refl _⟩
  intro e he
  cases h with
  | quiet keeps | allocated _ keeps =>
    rw [keeps.1] at he
    cases he
  | inserted _ booked _ returned =>
    cases returned
    obtain ⟨r, hr, hexecution⟩ := booked.exists_record e he
    exact hstored r (List.mem_append_right _ hr) e _ (StepRecord.shows_of_ofExecution hexecution)
  | replaced place _ _ _ _ written _ returned =>
    cases returned
    obtain rfl := List.mem_singleton.1 he
    obtain ⟨hk, -⟩ := List.getElem?_eq_some_iff.1 place
    exact hstored _ (List.mem_set hk _) e _ written

/-! ## Reports of updates -/

/-- What an update reports is so: nothing is missing, and a conflict is over the id and the version
that were passed, with the step at the version that is reported, which is later. -/
structure StoreError.Truthful (steps : String) (e : StepExecution) (s : Store) (error : StoreError) :
    Prop where
  present : error.kind ≠ .notFound
  conflict : ∀ id expected actual, error = .optimisticLockConflict id expected actual →
    ∃ key version r, e.id = some key ∧ e.version = some version ∧ id = key.toInt ∧
      expected = version.toInt ∧ s.step? steps key = some r ∧ actual = r.version.toInt ∧
      expected < actual

/-- What reports something else is truthful. -/
theorem StoreError.truthful_of_kind {error : StoreError}
    (h : error.kind ≠ .notFound ∧ error.kind ≠ .optimisticLockConflict) (steps : String)
    (e : StepExecution) (s : Store) : error.Truthful steps e s where
  present := h.1
  conflict _ _ _ heq := absurd (congrArg kind heq) h.2

/-- Others leave a store with a ledger, take no step away and none to an earlier version. -/
def Site.progress (site : Site) : Store → Store → Prop :=
  fun s s' => site.rely s s' ∧ s.Grows s' site.steps

namespace Operation

variable {site : Site} {client : Client} {s : Store} {e : StepExecution}

/-- An update that fails without a request does so because of an argument. -/
theorem kind_of_program_update {error : StoreError}
    (h : Operation.program site client (.update e) = .fail error) :
    error.kind = .invalidArgument := by
  obtain ⟨cause, hkind, hupdate⟩ | ⟨_, _, _, _, -, -, -, -, hupdate⟩ := update_cases site client e
  all_goals
    rw [program, hupdate] at h
    cases h
  exact hkind

/-- Where a step has passed a version, it is found at a later one. -/
theorem fulfils_diagnose_passed {id : Int64} {version : Int32} (hid : e.id = some id)
    (hversion : e.version = some version) (hpassed : s.Reached site.steps id (version.toInt + 1)) :
    Fulfils site.progress (fun _ _ => True) (StoreError.Truthful site.steps e) s
      ((site.catalogue client).diagnose id version) := by
  have hstep : ∀ s', site.progress s s' →
      ∃ r, s'.step? site.steps id = some r ∧ version.toInt + 1 ≤ r.version.toInt :=
    fun s' hothers => hothers.2 id _ hpassed
  refine fulfils_diagnose_of (fun _ h => h.1) (fun s' hothers hnone => ?_) fun s' r hothers hr => ?_
  · obtain ⟨r, hr, -⟩ := hstep s' hothers
    rw [hnone] at hr
    cases hr
  · refine ⟨fun h => (by cases h), fun _ _ _ heq => ?_⟩
    obtain ⟨r', hr', hlt⟩ := hstep s' hothers
    obtain rfl := Option.some.inj (hr.symm.trans hr')
    cases heq
    exact ⟨id, version, r, hid, hversion, rfl, rfl, hr, rfl, hlt⟩

/-- An update that finds no step at its version has found the step past this version, if the step had
reached it. -/
theorem passed_of_unmatched {s' s'' : Store} {id : Int64} {version : Int32} {r : StepRecord}
    (hrely : site.rely s s') (hreached : s'.Reached site.steps id version.toInt)
    (hversion : r.version ≠ version) {result : UpdateResult}
    (hupdate : s'.updateFirst site.steps ((Filter.byId (.ofInt64 id)).and StepRecord.versionField
      (.ofInt32 version)) r.update = (.ok result, s'')) (hnone : result.matched = 0) :
    s''.Reached site.steps id (version.toInt + 1) := by
  obtain ⟨value, records, hledger⟩ := hrely
  obtain ⟨-, hledger''⟩ | ⟨_, _, -, -, -, hone, -⟩ := hledger.updateFirst hversion hupdate
  · -- the step is there, for it has reached the version, and it is not at it
    obtain ⟨_, hstored, hle⟩ := hreached
    obtain ⟨stored, hmem, rfl, rfl⟩ := hledger.mem_of_step? hstored
    have hle : version.toInt ≤ stored.version.toInt := hle
    have hne := hledger.version_ne hupdate hnone hmem rfl
    have hapart : version.toInt ≠ stored.version.toInt :=
      fun heq => hne (Int32.toInt_inj.1 heq.symm)
    refine ⟨_, hledger''.step?_of_mem hmem, ?_⟩
    show version.toInt + 1 ≤ stored.version.toInt
    omega
  · omega

/-- An update of what a step has reached reports what is so. -/
theorem fulfils_update_truthful (h : s.Bears site.steps e) :
    Fulfils site.progress (fun _ _ => True) (StoreError.Truthful site.steps e) s
      ((site.catalogue client).update e) := by
  obtain ⟨error, hkind, hupdate⟩ | ⟨id, version, next, r, hid, hversion, hnext, hr, hupdate⟩ :=
    update_cases site client e
  · rw [hupdate]
    exact StoreError.truthful_of_kind (by simp [hkind]) site.steps e s
  · rw [hupdate]
    rintro s' result s'' ⟨hrely, hgrows⟩ hanswer
    show Fulfils _ _ _ _ (if UpdateResult.matched result = 0 then _ else _)
    split
    · next hnone =>
      obtain ⟨id', version', hid', hversion', hreached⟩ := h.grows hgrows
      obtain rfl := Option.some.inj (hid.symm.trans hid')
      obtain rfl := Option.some.inj (hversion.symm.trans hversion')
      have hrversion := version_ne_of_nextVersion hnext hr
      exact fulfils_diagnose_passed hid hversion
        (passed_of_unmatched hrely hreached hrversion hanswer hnone)
    · trivial

end Operation

/-! ## Honest clients -/

/-- The executions that an operation has returned. -/
def Reply.executions (reply : Reply) : List StepExecution := reply.written ++ reply.looked

namespace World

/-- The executions that calls have returned. -/
def told (w : World Command Reply) : List StepExecution := w.replies.flatMap (·.2.executions)

/-- What is updated has the id and the version of an execution that a call has returned. -/
def Honest (w : World Command Reply) (command : Command) : Prop :=
  ∀ e, command.2 = .update e → ∃ told ∈ w.told, told.id = e.id ∧ told.version = e.version

end World

/-- From a store on, what is left of a call looks up what is stored, and an update reports what is
so. -/
structure Call.Tells (site : Site) (s : Store) (call : Call Command Reply) : Prop where
  looks : Fulfils site.rely (fun s reply => ∀ e ∈ reply.looked, s.Shows site.steps e)
    (fun _ _ => True) s call.left
  reports : ∀ e, call.what.2 = .update e →
    Fulfils site.progress (fun _ _ => True) (StoreError.Truthful site.steps e) s call.left

namespace Call.Tells

variable {site : Site} {s s' : Store} {what : Command}

/-- A call tells what is so from its start, if an update is one of what a step has reached. -/
theorem start (h : ∀ e, what.2 = .update e → s.Bears site.steps e) :
    Call.Tells site s ⟨what, site.program what⟩ where
  looks := fulfils_mono (Operation.fulfils_program what.2) (fun _ _ h => h) fun _ _ _ => trivial
  reports e hupdate := by
    obtain ⟨client, operation⟩ := what
    obtain rfl : operation = .update e := hupdate
    exact fulfils_bind (Operation.fulfils_update_truthful (h e rfl)) fun _ _ _ => trivial

/-- What is left of a call after an answer goes on to tell what is so. -/
theorem resume {request : Request} {next : request.Answer → Program Reply}
    (h : Call.Tells site s ⟨what, .ask request next⟩) {value : Int64} {records : List StepRecord}
    (hledger : Ledger site s' value records) (hgrows : s.Grows s' site.steps) :
    Call.Tells site (s'.answer request).2 ⟨what, Program.resume next (s'.answer request).1⟩ where
  looks := h.looks.resume ⟨value, records, hledger⟩ fun _ _ => trivial
  reports e hupdate := by
    refine (h.reports e hupdate).resume ⟨⟨value, records, hledger⟩, hgrows⟩ fun error herror => ?_
    have hkind := Store.kind_of_answer hledger.wellFormed request (Prod.ext herror rfl)
    exact StoreError.truthful_of_kind hkind site.steps e _

end Call.Tells

/-- What a call returns shows versions that are stored. -/
theorem Entered.bears {site : Site} {i : Nat} {what : Command} {held held' : Nat → List Int64}
    {value value' : Int64} {records records' : List StepRecord} {left : Program Reply}
    (h : Entered site i what held value records left held' value' records') {s' : Store}
    (hledger' : Ledger site s' value' records') (htells : Call.Tells site s' ⟨what, left⟩) :
    ∀ replied, (Call.mk what left).reply? = some replied → ∀ e ∈ replied.2.executions,
      s'.Bears site.steps e := by
  rintro replied hreply e he
  cases left with
  | done reply =>
    obtain rfl := Option.some.inj hreply
    rcases List.mem_append.1 he with he | he
    · exact h.bears_written hledger' e he
    · exact (htells.looks e he).bears
  | fail error => cases hreply
  | stalled => cases hreply
  | ask request next => cases hreply

/-- The calls of a world tell what is so. -/
structure Candid (site : Site) (w : World Command Reply) (held : Nat → List Int64) (value : Int64)
    (records : List StepRecord) : Prop extends Tended site w held value records where
  /-- The steps have reached the versions that were returned. -/
  told : ∀ e ∈ w.told, w.store.Bears site.steps e
  calls : ∀ call ∈ w.calls, ∃ s, s.Grows w.store site.steps ∧ call.Tells site s
  reported : ∀ m ∈ w.history, ∀ e error, m.what.2 = .update e → m.left = .fail error →
    error.Truthful site.steps e m.after

namespace Candid

variable {site : Site} {w : World Command Reply} {held : Nat → List Int64} {value : Int64}
  {records : List StepRecord}

theorem start (h : Candid site w held value records) {what : Command} (hhonest : w.Honest what) :
    ∃ held, Candid site (w.start what (site.program what)) held value records := by
  refine ⟨_, h.toTended.start what, h.told, fun call hcall => ?_, h.reported⟩
  rcases List.mem_append.1 hcall with hcall | hcall
  · exact h.calls call hcall
  · rw [List.mem_singleton.1 hcall]
    refine ⟨w.store, .refl _ _, .start fun e hupdate => ?_⟩
    obtain ⟨known, hknown, hid, hversion⟩ := hhonest e hupdate
    have hbears := h.told known hknown
    rwa [Store.Bears, hid, hversion] at hbears

/-- A request is answered. -/
theorem answer (h : Candid site w held value records) {i : Nat} {what : Command}
    {request : Request} {next : request.Answer → Program Reply}
    (hcall : w.calls[i]? = some ⟨what, .ask request next⟩) :
    ∃ held value records, Candid site (w.answer i what request next) held value records := by
  obtain ⟨held', value', records', htended, hentered⟩ := h.toTended.answer hcall
  have hgrows : w.store.Grows (w.store.answer request).2 site.steps :=
    hentered.grows h.ledger htended.ledger
  obtain ⟨s, hgrown, htells⟩ := h.calls _ (List.mem_of_getElem? hcall)
  have hnow := htells.resume h.ledger hgrown
  refine ⟨held', value', records', htended, fun e he => ?_, fun call hm => ?_, fun m hm => ?_⟩
  · rw [World.told, World.replies_answer, List.flatMap_append, List.mem_append] at he
    rcases he with he | he
    · exact (h.told e he).grows hgrows
    · obtain ⟨replied, hreplied, he⟩ := List.mem_flatMap.1 he
      exact hentered.bears htended.ledger hnow replied (Option.mem_toList.1 hreplied) e he
  · rcases List.mem_or_eq_of_mem_set hm with hm | rfl
    · obtain ⟨s', hgrown, htells⟩ := h.calls call hm
      exact ⟨s', hgrown.trans hgrows, htells⟩
    · exact ⟨_, .refl _ _, hnow⟩
  · rw [World.history_answer] at hm
    rcases List.mem_append.1 hm with hm | hm
    · exact h.reported m hm
    · rw [List.mem_singleton.1 hm]
      intro e error hupdate hfail
      have htruthful := hnow.reports e hupdate
      rwa [show Program.resume next (w.store.answer request).1 = .fail error from hfail] at htruthful

theorem rest (h : Candid site w held value records) {store : Store}
    (halike : w.store.Alike store) : Candid site { w with store } held value records where
  toTended := h.toTended.rest halike
  told e he := (h.told e he).grows (halike.grows site.steps)
  calls call hcall := by
    obtain ⟨s, hgrown, htells⟩ := h.calls call hcall
    exact ⟨s, hgrown.trans (halike.grows site.steps), htells⟩
  reported := h.reported

/-- What holds of a world holds along its runs. -/
theorem run (h : Candid site w held value records) {moves : List (Move Command)}
    (hhonest : World.Permitted site.program World.Honest w moves) :
    ∃ held value records, Candid site (w.run site.program moves) held value records := by
  refine hhonest.run_induction (motive := fun w => ∃ held value records,
    Candid site w held value records) ⟨held, value, records, h⟩ ?_ ?_ ?_
  · rintro w what ⟨held, value, records, h⟩ hhonest
    obtain ⟨held', h'⟩ := h.start hhonest
    exact ⟨held', value, records, h'⟩
  · rintro w i what request next ⟨held, value, records, h⟩ hcall
    exact h.answer hcall
  · rintro w store ⟨held, value, records, h⟩ halike
    exact ⟨held, value, records, h.rest halike⟩

end Candid

/-- Let operations of any clients run in any order of their requests, and let clients update only
executions with an id and a version that a call has returned before. An update that fails does not
report that the step is missing. If it reports a conflict, this is over the id and the version that
were passed, and the version reported is later and was that of the step when the update looked. -/
theorem World.conflicts_are_truthful {site : Site} {s : Store} (hs : s.Reachable) {v : Int64}
    (hv : s.lastValue? site.counters site.sequence = some v) {records : List StepRecord}
    (hrecords : (s.view site.steps).documents = records.map StepRecord.toDocument)
    (hids : ∀ r ∈ records, r.id.toInt ≤ v.toInt) {moves : List (Move Command)}
    (hhonest : Permitted site.program Honest (ofStore s) moves) :
    let w := (ofStore s).run site.program moves
    ∀ i client e error, w.calls[i]? = some ⟨(client, .update e), .fail error⟩ →
      error.kind ≠ .notFound ∧ ∀ id expected actual,
        error = .optimisticLockConflict id expected actual →
        e.id.map (·.toInt) = some id ∧ e.version.map (·.toInt) = some expected ∧
        expected < actual ∧ ∃ m ∈ w.history, m.call = i ∧
          ∃ key r, key.toInt = id ∧ m.after.step? site.steps key = some r ∧
            r.version.toInt = actual := by
  intro w i client e error hcall
  have hbegin : Candid site (ofStore s) (fun _ => []) v records := by
    refine ⟨.ofStore ⟨hs.wellFormed, hv, hrecords, hids⟩, ?_, ?_, ?_⟩
    · exact fun e he => nomatch he
    · exact fun call hcall => nomatch hcall
    · exact fun m hm => nomatch hm
  obtain ⟨held, value, records, h⟩ := hbegin.run hhonest
  obtain ⟨m, hm, hi, hleft⟩ | hstart := exists_moment hcall
  · obtain ⟨hwhat, hfail⟩ := Call.mk.inj hleft
    have htruthful := h.reported m hm e error (congrArg Prod.snd hwhat) hfail
    refine ⟨htruthful.present, fun id expected actual heq => ?_⟩
    obtain ⟨key, version, r, hid, hversion, rfl, rfl, hr, rfl, hlt⟩ :=
      htruthful.conflict id expected actual heq
    exact ⟨by rw [hid]; rfl, by rw [hversion]; rfl, hlt, m, hm, hi, key, r, rfl, hr, rfl⟩
  · have hkind := Operation.kind_of_program_update hstart.symm
    refine ⟨by simp [hkind], fun id expected actual heq => ?_⟩
    rw [heq] at hkind
    cases hkind

/-- In the race for version 0 the update that came second reports a conflict with version 1. -/
theorem World.conflict_in_race :
    let w := (ofStore .seeded).run Site.desk.program updateRace
    w.calls[1]? = some ⟨(.clerk, .update (.identified .opening 1 0)),
        .fail (.optimisticLockConflict 1 0 1)⟩ ∧
      (0 : Int) < 1 ∧ ∃ m ∈ w.history, m.call = 1 ∧ ∃ key r, Int64.toInt key = 1 ∧
        m.after.step? "steps" key = some r ∧ r.version.toInt = 1 := by
  intro w
  have hv : Store.seeded.lastValue? Site.desk.counters Site.desk.sequence = some 0 := by
    decide +kernel
  have hempty : (Store.seeded.view Site.desk.steps).documents = [].map StepRecord.toDocument :=
    List.isEmpty_iff.1 (by decide +kernel)
  have hhonest : Permitted Site.desk.program Honest (ofStore .seeded) updateRace := by
    have hask : ∀ {w : World Command Reply} {i : Nat}, ∀ what, Move.ask i = .start what →
        w.Honest what := fun _ h => by cases h
    have hsave : ∀ {w : World Command Reply}, ∀ what,
        Move.start (.clerk, .save .opening) = .start what → w.Honest what := by
      rintro w _ ⟨⟩ e h
      cases h
    have hupdate : ∀ {w : World Command Reply},
        (∃ told ∈ w.told, told.id = some 1 ∧ told.version = some 0) → ∀ what,
        Move.start (.clerk, .update (.identified .opening 1 0)) = .start what → w.Honest what := by
      rintro w htold _ ⟨⟩ e h
      cases h
      exact htold
    exact ⟨hsave, hask, hask, hask, hupdate (by decide +kernel), hupdate (by decide +kernel), hask,
      hask, hask, trivial⟩
  have hcall : w.calls[1]? = some ⟨(.clerk, .update (.identified .opening 1 0)),
      .fail (.optimisticLockConflict 1 0 1)⟩ := rfl
  obtain ⟨-, hconflict⟩ := conflicts_are_truthful (.answer _ .inMemory) hv hempty (by simp)
    hhonest 1 _ _ _ hcall
  obtain ⟨-, -, hlt, hseen⟩ := hconflict 1 0 1 rfl
  exact ⟨hcall, hlt, hseen⟩

end StepLedger

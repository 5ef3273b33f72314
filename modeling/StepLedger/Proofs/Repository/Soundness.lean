import StepLedger.Proofs.Repository.Opening
import StepLedger.Proofs.Step.Answering
import StepLedger.Proofs.Step.Entries
import StepLedger.Proofs.Step.ReadAfterWrite
import StepLedger.Proofs.Step.Refusal

/-!
# A repository stays sound

From the opening of an empty repository on, whatever is called by any number of clients at once, each
document among the steps is a record within its bounds, and the ids of the steps are distinct numbers
from one up to the last that was handed out. So no call ever fails over what is stored: no key is a
duplicate, no more than one step is found where one is wanted, and every document can be read
(`Repository.sound`).
-/

namespace StepLedger

open Sequence

/-! ## Bounds of records -/

/-- The record of a step is within its bounds. -/
structure StepRecord.Bounded (cap : Nat) (r : StepRecord) : Prop where
  version : 0 ≤ r.version.toInt
  counters : ∀ counter ∈ r.counters.named, counter.2 ≤ Counters.limit
  description : r.exit.description.length ≤ cap

namespace StepRecord

variable {cap : Nat} {e : StepExecution} {r before : StepRecord}

/-- What is stored of an execution is within bounds. -/
theorem bounded_of_ofExecution (h : ofExecution e cap = .ok r) (hversion : 0 ≤ r.version.toInt) :
    r.Bounded cap := by
  have hsame := (ofExecution_eq_ok h).2
  have hexit : r.exit = (e.cut cap).exit := congrArg StepExecution.exit hsame
  refine ⟨hversion, Counters.check_eq_ok.1 (check_of_ofExecution h), ?_⟩
  rw [hexit]
  exact length_cutDescription e.exit.description cap

theorem Bounded.laidOver (h : r.Bounded cap) (before : StepRecord) :
    (r.laidOver before).Bounded cap := ⟨h.version, h.counters, h.description⟩

theorem Bounded.carried (h : r.Bounded cap) : r.carried.Bounded cap :=
  ⟨h.version, h.counters, h.description⟩

end StepRecord

/-- The ids that are held and the records are within bounds; ids were handed out from zero on. -/
structure Within (cap : Nat) (held : Nat → List Int64) (value : Int64) (records : List StepRecord) :
    Prop where
  value : 0 ≤ value.toInt
  held : ∀ i, ∀ id ∈ held i, 1 ≤ id.toInt
  records : ∀ r ∈ records, 1 ≤ r.id.toInt ∧ r.Bounded cap

namespace Within

variable {cap : Nat} {held held' : Nat → List Int64} {value value' : Int64}
  {records records' : List StepRecord}

theorem none (cap : Nat) : Within cap (fun _ => []) 0 [] := ⟨Int.le_refl _, by simp, by simp⟩

/-- One call has its ids replaced. -/
theorem update (h : Within cap held value records) (i : Nat) {ids : List Int64}
    (hids : ∀ id ∈ ids, 1 ≤ id.toInt) : Within cap (Function.update held i ids) value records := by
  refine ⟨h.value, fun j id hid => ?_, h.records⟩
  by_cases heq : j = i
  · subst heq
    rw [Function.update_self] at hid
    exact hids id hid
  · rw [Function.update_of_ne heq] at hid
    exact h.held j id hid

/-- What is entered into a ledger is within bounds. -/
theorem entered (h : Within cap held value records) {site : Site} {i : Nat} {what : Command}
    {left : Program Reply} (hcap : what.1.cap = cap)
    (hentered : Entered site i what held value records left held' value' records') :
    Within cap held' value' records' := by
  cases hentered with
  | quiet => exact h
  | allocated successor =>
    have hsum := Update.addChecked_eq_some_iff.1 successor
    have hone : (1 : Int64).toInt = 1 := rfl
    have hvalue := h.value
    have hlater : Within cap held value' records := ⟨by omega, h.held, h.records⟩
    refine hlater.update i fun id hid => ?_
    rcases List.mem_append.1 hid with hid | hid
    · exact h.held i id hid
    · rw [List.mem_singleton.1 hid]
      omega
  | @inserted rs reply ids booked =>
    have hnew : ∀ r ∈ rs, r.Bounded cap := by
      intro r hr
      obtain ⟨e, hexecution⟩ := booked.exists_execution r hr
      refine StepRecord.bounded_of_ofExecution (hcap ▸ hexecution) ?_
      rw [booked.version_eq r hr]
      exact Int.le_refl _
    refine ⟨h.value, (h.update i (by simp)).held, fun r hr => ?_⟩
    rcases List.mem_append.1 hr with hr | hr
    · exact h.records r hr
    · exact ⟨h.held i r.id (ids ▸ List.mem_map_of_mem hr), hnew r hr⟩
  | @replaced k before r e updated place _ _ _ successor _ execution =>
    have hbefore := h.records before (List.mem_of_getElem? place)
    have hversion := hbefore.2.version
    refine ⟨h.value, h.held, fun r' hr' => ?_⟩
    rcases List.mem_or_eq_of_mem_set hr' with hr' | rfl
    · exact h.records r' hr'
    · have hbounded := StepRecord.bounded_of_ofExecution (hcap ▸ execution) (by omega)
      exact ⟨hbefore.1, hbounded.laidOver before⟩

end Within

/-! ## Runs -/

/-- An operation may fail with this error although there is no fault in what is stored. If it is one
of a kind that tells of documents, then the operation writes, and it was a device that did not take
what was written. -/
def Operation.MayFail (operation : Operation) (e : StoreError) : Prop :=
  ¬ e.BlamesDocuments ∨ operation.looks = false ∧ ∃ fault, e = .serialization (.unwritten fault)

/-- A call asks what operations ask, with the length of exit descriptions that is configured, and
finds no fault with what is stored. -/
structure Call.Sound (site : Site) (cap : Nat) (call : Call Command Reply) : Prop where
  cap : call.what.1.cap = cap
  asks : call.left.Asks site.Poses fun _ => True
  looks : call.what.2.looks = true →
    call.left.Asks (fun request => Store.looks request = true) fun _ => True
  faultless : ∃ s : Store, s.HoldsCounters site.counters ∧ Program.Fulfils site.rely
    (fun _ _ => True) (fun s e => s.HoldsCounters site.counters → call.what.2.MayFail e) s call.left

/-- What operations keep of a repository. -/
structure Sound (site : Site) (cap : Nat) (w : World Command Reply) (held : Nat → List Int64)
    (value : Int64) (records : List StepRecord) : Prop extends Tended site w held value records where
  within : Within cap held value records
  counters : w.store.HoldsCounters site.counters
  calls : ∀ call ∈ w.calls, call.Sound site cap

namespace Sound

variable {site : Site} {cap : Nat} {w : World Command Reply} {held : Nat → List Int64}
  {value : Int64} {records : List StepRecord}

theorem start (h : Sound site cap w held value records) {what : Command} (hcap : what.1.cap = cap) :
    ∃ held, Sound site cap (w.start what (site.program what)) held value records := by
  refine ⟨_, h.toTended.start what, h.within.update _ (by simp), h.counters, fun call hcall => ?_⟩
  rcases List.mem_append.1 hcall with hcall | hcall
  · exact h.calls call hcall
  · rw [List.mem_singleton.1 hcall]
    refine ⟨hcap, ?_, Operation.asks_looks, w.store, h.counters, ?_⟩
    · exact Program.asks_mono (Operation.asks_program what.2) (fun _ h => h) fun _ _ => trivial
    · exact Program.fulfils_mono (Operation.fulfils_program what.2) (fun _ _ _ => trivial)
        fun _ _ h hcounters => .inl (h hcounters)

/-- A request is answered, or refused for no fault of what is stored. -/
theorem answer (h : Sound site cap w held value records) {i : Nat} {what : Command}
    {request : Request} {next : request.Answer → Program Reply}
    (hcall : w.calls[i]? = some ⟨what, .ask request next⟩) :
    ∃ held value records, Sound site cap (w.answer i what request next) held value records := by
  obtain ⟨hcap, ⟨hposes, hasks⟩, hlooks, s, -, hfulfils⟩ := h.calls _ (List.mem_of_getElem? hcall)
  obtain ⟨held', value', records', htended, hentered⟩ := h.toTended.answer hcall
  have hcounters := h.counters.answer h.ledger.wellFormed h.ledger.apart hposes
  refine ⟨held', value', records', htended, h.within.entered hcap hentered, hcounters,
    fun call hm => ?_⟩
  rcases List.mem_or_eq_of_mem_set hm with hm | rfl
  · exact h.calls call hm
  · refine ⟨hcap, Program.asks_resume hasks _, fun hwhat => Program.asks_resume (hlooks hwhat).2 _, _,
      hcounters, hfulfils.resume ⟨value, records, h.ledger⟩ fun e herror _ => ?_⟩
    obtain (hkind | hunwritten) | hkind := (h.pending i what request next hcall).refusal hposes
      h.ledger (h.holds.fresh i) (Prod.ext herror rfl)
    · exact .inl (StoreError.not_blamesDocuments .storeUnavailable hkind (by decide))
    · refine .inr ⟨Bool.eq_false_iff.2 fun hwhat => ?_, hunwritten⟩
      -- to look is never refused because something could not be written
      obtain ⟨fault, rfl⟩ := hunwritten
      obtain hkind | hkind := Store.kind_of_look (hlooks hwhat).1 (Prod.ext herror rfl) <;> cases hkind
    · exact .inl (StoreError.not_blamesDocuments .invalidArgument hkind (by decide))

theorem rest (h : Sound site cap w held value records) {store : Store}
    (halike : w.store.Alike store) : Sound site cap { w with store } held value records :=
  ⟨h.toTended.rest halike, h.within, h.counters.of_view (halike site.counters), h.calls⟩

/-- No call has failed over what is stored. -/
theorem mayFail (h : Sound site cap w held value records) {call : Call Command Reply}
    (hcall : call ∈ w.calls) {e : StoreError} (hfail : call.left = .fail e) :
    call.what.2.MayFail e := by
  obtain ⟨s, hcounters, hfulfils⟩ := (h.calls call hcall).faultless
  rw [hfail] at hfulfils
  exact hfulfils hcounters

/-- What holds of a world holds along its runs. -/
theorem run (h : Sound site cap w held value records) {moves : List (Move Command)}
    (hpermitted : World.Permitted site.program (fun _ what => what.1.cap = cap) w moves) :
    ∃ held value records, Sound site cap (w.run site.program moves) held value records := by
  refine hpermitted.run_induction (motive := fun w => ∃ held value records,
    Sound site cap w held value records) ⟨held, value, records, h⟩ ?_ ?_ ?_
  · rintro w what ⟨held, value, records, h⟩ hcap
    obtain ⟨held', h'⟩ := h.start hcap
    exact ⟨held', value, records, h'⟩
  · rintro w i what request next ⟨held, value, records, h⟩ hcall
    exact h.answer hcall
  · rintro w store ⟨held, value, records, h⟩ halike
    exact ⟨held, value, records, h.rest halike⟩

end Sound

namespace Repository

variable {c : Config} {disk disk' : Disk} {r : Repository}

/-! ## Opening -/

/-- A repository is opened by seeding the counter in the store of a valid configuration. -/
theorem returned_of_ofConfig (h : ofConfig disk c = (.returned r, disk')) : c.validate = .ok () ∧
    ∃ s disk'' counter, openStore disk c = (.ok s, disk'') ∧
      c.seedSteps.run Store.answer s = (.returned counter, r.store) := by
  unfold ofConfig at h
  cases hvalid : c.validate with
  | error e => rw [hvalid] at h; cases h
  | ok _ =>
    rw [hvalid] at h
    cases hopen : openStore disk c with
    | mk result disk'' =>
      rw [hopen] at h
      cases result with
      | error e => cases h
      | ok s =>
        dsimp only at h
        cases hseed : c.seedSteps.run Store.answer s with
        | mk outcome s' =>
          rw [hseed] at h
          cases outcome with
          | returned counter => cases h; exact ⟨rfl, s, disk'', counter, rfl, hseed⟩
          | failed e => cases h
          | stalled => cases h

/-- The store of a configuration is blank, if there are no files. -/
theorem blank_of_openStore
    (hbare : ∀ directory, c.dataDirectory = some directory → disk.Bare directory) {s : Store}
    (h : openStore disk c = (.ok s, disk')) :
    s.WellFormed ∧ ∀ name, (s.view name).documents = [] := by
  unfold openStore at h
  cases hdirectory : c.dataDirectory with
  | none =>
    rw [hdirectory] at h
    cases h
    exact ⟨Store.Reachable.inMemory.wellFormed, fun _ => rfl⟩
  | some directory =>
    rw [hdirectory] at h
    dsimp only at h
    cases hmade : Archive.ofDirectory disk directory .sync with
    | mk result disk'' =>
      rw [hmade] at h
      cases result with
      | error e => cases h
      | ok a =>
        have hload := congrArg Prod.fst h
        have hstep := Store.inStep_of_bare (hbare directory hdirectory) hmade hload
        exact ⟨Store.wellFormed_of_ofArchive hload, fun name => hstep.blank name not_false⟩

/-- In a blank store the counter of the ids is made. -/
theorem seeded_of_blank (hvalid : c.validate = .ok ()) {s s' : Store} (hs : s.WellFormed)
    (hblank : ∀ name, (s.view name).documents = []) {counter : Counter}
    (h : c.seedSteps.run Store.answer s = (.returned counter, s')) :
    Ledger c.site s' 0 [] ∧ s'.HoldsCounters c.sequenceCollection := by
  obtain ⟨hname, happart⟩ := Config.of_validate hvalid
  cases hseed : s.findAndModify c.sequenceCollection (.byId (.string c.stepSequence))
      (Counter.seeding 0 defaultNote) ⟨true, true⟩ with
  | mk result s'' =>
    cases result with
    | error e => exact nomatch (Counter.run_seed_error hname hseed).symm.trans h
    | ok found =>
      obtain ⟨d, rfl, hdecode, hcounter, hbecomes⟩ :=
        Store.seed_new hs (Store.counter?_of_documents_nil (hblank _)) hseed
      cases (Counter.run_seed_ok hname hseed hdecode).symm.trans h
      refine ⟨⟨hs.of_answer (.findAndModify _ _ _ _) hseed, ?_, ?_, by simp⟩, fun d' hd' => ?_⟩
      · exact Store.lastValue?_eq_some_iff.2 ⟨d, _, hcounter, hdecode, rfl⟩
      · rw [show s'.view c.site.steps = _ from hbecomes.others _ happart, hblank]
        rfl
      · rw [hbecomes.documents, hblank, List.nil_append] at hd'
        exact List.mem_singleton.1 hd' ▸ ⟨_, hdecode⟩

/-! ## What is always so -/

/-- Let a repository be opened where nothing is stored, and let operations of any clients run in any
order of their requests, all with the length of exit descriptions that is configured. At every point
of the run the documents among the steps are records within their bounds, under distinct ids from one
up to the last that was handed out; and no call has failed over what is stored. The one error of such
a kind is that of a call that writes to a device that does not take it. -/
theorem sound (hopen : ofConfig disk c = (.returned r, disk'))
    (hbare : ∀ directory, c.dataDirectory = some directory → disk.Bare directory)
    {moves : List (Move Command)}
    (hcap : ∀ client operation, .start (client, operation) ∈ moves →
      client.cap = c.descriptionCap) :
    let w := (World.ofStore r.store).run c.site.program moves
    (∃ value records, w.store.lastValue? c.sequenceCollection c.stepSequence = some value ∧
      (w.store.view c.stepCollection).documents.mapM StepRecord.ofDocument = .ok records ∧
      (records.map (·.id)).Nodup ∧ ∀ record ∈ records, 1 ≤ record.id.toInt ∧
        record.id.toInt ≤ value.toInt ∧ record.Bounded c.descriptionCap) ∧
    ∀ call ∈ w.calls, ∀ e, call.left = .fail e → ¬ e.BlamesDocuments ∨
      call.what.2.looks = false ∧ ∃ fault, e = .serialization (.unwritten fault) := by
  intro w
  obtain ⟨hvalid, s, disk'', counter, hstore, hseed⟩ := returned_of_ofConfig hopen
  obtain ⟨hs, hblank⟩ := blank_of_openStore hbare hstore
  obtain ⟨hledger, hcounters⟩ := seeded_of_blank hvalid hs hblank hseed
  have hpermitted : World.Permitted c.site.program (fun _ what => what.1.cap = c.descriptionCap)
      (World.ofStore r.store) moves :=
    World.permitted_of_forall (fun what hm => hcap what.1 what.2 hm) _
  have hbegin : Sound c.site c.descriptionCap (World.ofStore r.store) (fun _ => []) 0 [] :=
    ⟨.ofStore hledger, .none _, hcounters, by simp [World.ofStore]⟩
  obtain ⟨held, value, records, h⟩ := hbegin.run hpermitted
  refine ⟨⟨value, records.map StepRecord.carried, h.ledger.counter, ?_, ?_, fun record hrecord => ?_⟩,
    fun call hcall e => h.mayFail hcall⟩
  · rw [show (w.store.view c.stepCollection).documents = _ from h.ledger.documents]
    exact StepRecord.mapM_ofDocument records
  · rw [List.map_map]
    exact h.ledger.nodup
  · obtain ⟨stored, hstored, rfl⟩ := List.mem_map.1 hrecord
    obtain ⟨hid, hbounded⟩ := h.within.records stored hstored
    exact ⟨hid, h.ledger.ids_le stored hstored, hbounded.carried⟩

end Repository

/-- The repository in memory with the usual settings. -/
def Repository.usual : Repository :=
  ⟨.default, (Config.default.seedSteps.run Store.answer .inMemory).2⟩

/-- Two saves side by side, an update of the first, and a look at it. -/
def sideBySide : List (Move Command) :=
  [.start (Config.default.client 1, .save .opening), .start (Config.default.client 1, .save .opening),
    .ask 0, .ask 1, .ask 1, .ask 0,
    .start (Config.default.client 1, .update (.identified .opening 1 0)), .ask 2,
    .start (Config.default.client 1, .get ⟨7, 3⟩ 1), .ask 3]

theorem Repository.sound_side_by_side :
    let w := (World.ofStore usual.store).run Config.default.site.program sideBySide
    ofConfig (Archive.drawer none).disk .default = (.returned usual, (Archive.drawer none).disk) ∧
      (∀ directory, Config.default.dataDirectory = some directory →
        (Archive.drawer none).disk.Bare directory) ∧
      (∀ client operation, .start (client, operation) ∈ sideBySide →
        client.cap = Config.default.descriptionCap) ∧
      (w.store.view Config.default.stepCollection).documents.length = 2 ∧
      ∃ records, (w.store.view Config.default.stepCollection).documents.mapM StepRecord.ofDocument =
          .ok records ∧ ∀ record ∈ records, 1 ≤ record.id.toInt ∧ record.Bounded 2500 := by
  intro w
  have hopen : ofConfig (Archive.drawer none).disk .default =
      (.returned usual, (Archive.drawer none).disk) := rfl
  have hbare : ∀ directory, Config.default.dataDirectory = some directory →
      (Archive.drawer none).disk.Bare directory := nofun
  have hcap : ∀ client operation, .start (client, operation) ∈ sideBySide →
      client.cap = Config.default.descriptionCap := by
    intro client operation hm
    simp only [sideBySide, List.mem_cons, Move.start.injEq, Prod.mk.injEq, reduceCtorEq,
      List.not_mem_nil, or_false, false_or] at hm
    rcases hm with ⟨rfl, -⟩ | ⟨rfl, -⟩ | ⟨rfl, -⟩ | ⟨rfl, -⟩ <;> rfl
  obtain ⟨⟨value, records, -, hread, -, hrecords⟩, -⟩ := sound hopen hbare hcap
  exact ⟨hopen, hbare, hcap, by decide +kernel, records, hread, fun record hrecord =>
    ⟨(hrecords record hrecord).1, (hrecords record hrecord).2.2⟩⟩

end StepLedger

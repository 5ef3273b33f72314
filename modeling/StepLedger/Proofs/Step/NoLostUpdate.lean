import StepLedger.Proofs.Step.Entries
import StepLedger.Proofs.Step.ReadAfterWrite

/-!
# No update is lost

Any number of clients call any operations at once. The invariant `Books` of a run says that the store
has a ledger which the operations under way keep, and that the history accounts for the records. So the
version of a step counts its updates, only one of those that start from a version succeeds, and what is
stored is what was written last.
-/

namespace StepLedger

/-! ## The books of a run -/

/-- The version from which a call has updated the step with an id, if it has. -/
def Call.updatedFrom? (id : Int64) (call : Call Command Reply) : Option Int32 :=
  call.reply?.bind (StepLedger.updatedFrom? id)

/-- A request took the stored version of a step to the one after `version`. -/
def Moment.Raises (m : Moment Command Reply) (steps : String) (id : Int64) (version : Int32) :
    Prop :=
  ∃ before after, m.before.step? steps id = some before ∧ m.after.step? steps id = some after ∧
    before.version = version ∧ after.version.toInt = version.toInt + 1

/-- What keeps a ledger has not updated anything. -/
theorem Call.updatedFrom?_of_keeps {site : Site} {what : Command} {held : List Int64}
    {left : Program Reply} (h : Keeps site what held left) (id : Int64) :
    (Call.mk what left).updatedFrom? id = none := by
  cases left with
  | done reply => exact StepLedger.updatedFrom?_eq_none h.2 reply id
  | fail e => rfl
  | stalled => rfl
  | ask request next => rfl

/-- What is entered for an update took the version of the step to the next. -/
theorem Entered.raises {site : Site} {i : Nat} {what : Command} {held held' : Nat → List Int64}
    {value value' : Int64} {records records' : List StepRecord} {left : Program Reply}
    (h : Entered site i what held value records left held' value' records') {s s' : Store}
    (hledger : Ledger site s value records) (hledger' : Ledger site s' value' records') {id : Int64}
    {version : Int32} (hupdated : (Call.mk what left).updatedFrom? id = some version) :
    Moment.Raises ⟨i, what, s, s', left⟩ site.steps id version := by
  cases h with
  | quiet keeps | allocated _ keeps =>
    rw [Call.updatedFrom?_of_keeps keeps] at hupdated
    cases hupdated
  | @inserted _ reply _ _ unlike returned =>
    subst returned
    rw [show (Call.mk what (.done reply)).updatedFrom? id = none from
      updatedFrom?_eq_none unlike reply id] at hupdated
    cases hupdated
  | @replaced k before r _ updated place update hid hversion successor written execution returned =>
    subst returned
    have hklt := (List.getElem?_eq_some_iff.1 place).1
    rw [show (Call.mk what (.done (.updated updated))).updatedFrom? id = _ from
      updatedFrom?_eq_of_update update hid hversion (.updated updated) id] at hupdated
    split at hupdated
    · next heq =>
      obtain rfl := Option.some.inj hupdated
      rw [heq]
      exact ⟨before.carried, (r.laidOver before).carried,
        hledger.step?_of_mem (List.mem_of_getElem? place),
        hledger'.step?_of_mem (List.mem_set hklt _), rfl, successor⟩
    · cases hupdated

/-- What is entered into a ledger is accounted for. -/
theorem Accounted.entered {replies : List Replied} {records records' : List StepRecord}
    (h : Accounted replies records) (hn : (records.map (·.id)).Nodup) {site : Site} {i : Nat}
    {what : Command} {held held' : Nat → List Int64} {value value' : Int64} {left : Program Reply}
    (hfresh : Fresh (held i) value records)
    (hentered : Entered site i what held value records left held' value' records') :
    Accounted (replies ++ (Call.reply? ⟨what, left⟩).toList) records' := by
  cases hentered with
  | quiet keeps | allocated _ keeps => exact h.append_of_keeps keeps
  | @inserted _ reply ids booked unlike returned =>
    subst returned
    exact h.append_inserted (ids ▸ hfresh.nodup)
      (fun r hr => hfresh.notMem r.id (ids ▸ List.mem_map_of_mem hr)) booked
      (updatedFrom?_eq_none unlike reply)
  | @replaced _ _ _ _ updated place update id version successor written execution returned =>
    subst returned
    exact h.append_replaced hn place (updatedFrom?_eq_of_update update id version (.updated updated))
      rfl written successor

/-- The books of calls on a site. -/
structure Books (site : Site) (w : World Command Reply) (held : Nat → List Int64) (value : Int64)
    (records : List StepRecord) : Prop extends Tended site w held value records where
  accounted : Accounted w.replies records
  raised : ∀ m ∈ w.history, ∀ id version, m.callLeft.updatedFrom? id = some version →
    m.Raises site.steps id version

namespace Books

variable {site : Site} {w : World Command Reply} {held : Nat → List Int64} {value : Int64}
  {records : List StepRecord}

/-- Every request keeps the books. -/
theorem answer (h : Books site w held value records) {i : Nat} {what : Command}
    {request : Request} {next : request.Answer → Program Reply}
    (hcall : w.calls[i]? = some ⟨what, .ask request next⟩) :
    ∃ held value records, Books site (w.answer i what request next) held value records := by
  obtain ⟨held', value', records', htended, hentered⟩ := h.toTended.answer hcall
  refine ⟨held', value', records', htended, ?_, fun m hm => ?_⟩
  · rw [World.replies_answer]
    exact h.accounted.entered h.ledger.nodup (h.holds.fresh i) hentered
  · rw [World.history_answer] at hm
    rcases List.mem_append.1 hm with hm | hm
    · exact h.raised m hm
    · rw [List.mem_singleton.1 hm]
      exact fun id version => hentered.raises h.ledger htended.ledger

/-- Every run keeps the books. -/
theorem run (h : Books site w held value records) (moves : List (Move Command)) :
    ∃ held value records, Books site (w.run site.program moves) held value records := by
  refine World.run_induction (motive := fun w => ∃ held value records,
    Books site w held value records) ⟨held, value, records, h⟩ ?_ ?_ ?_ moves
  · rintro w what ⟨held, value, records, h⟩
    exact ⟨_, _, _, h.toTended.start what, h.accounted, h.raised⟩
  · rintro w i what request next ⟨held, value, records, h⟩ hcall
    exact h.answer hcall
  · rintro w store ⟨held, value, records, h⟩ halike
    exact ⟨_, _, _, h.toTended.rest halike, h.accounted, h.raised⟩

end Books

/-- The books before any call. -/
theorem books_ofStore (site : Site) {s : Store} (hs : s.WellFormed) {v : Int64}
    (hv : s.lastValue? site.counters site.sequence = some v)
    (hempty : (s.view site.steps).documents = []) :
    Books site (World.ofStore s) (fun _ => []) v [] where
  toTended := .ofStore ⟨hs, hv, hempty, by simp⟩
  accounted := .nil
  raised := by simp [World.ofStore]

/-! ## Updates and what is stored -/

/-- How many calls have updated the step with an id. -/
def World.updates (w : World Command Reply) (id : Int64) : Nat :=
  w.calls.countP fun call => (call.updatedFrom? id).isSome

/-- How many calls have updated the step with an id from a version. -/
def World.updatesFrom (w : World Command Reply) (id : Int64) (version : Int32) : Nat :=
  w.calls.countP fun call => call.updatedFrom? id == some version

section Run

variable (site : Site) (s : Store) (moves : List (Move Command))

/-- What calls have updated stands in the history. -/
theorem countP_updatedFrom? (p : Option Int32 → Bool) (hp : p none = false) (id : Int64) :
    ((World.ofStore s).run site.program moves).calls.countP (fun call => p (call.updatedFrom? id)) =
      ((World.ofStore s).run site.program moves).history.countP fun m =>
        p (m.callLeft.updatedFrom? id) := by
  refine World.countP_calls (fun what => ?_) (fun what request next => hp) s moves
  rw [Call.updatedFrom?_of_keeps (keeps_program site what), hp]

theorem updates_eq (id : Int64) : ((World.ofStore s).run site.program moves).updates id =
    (updatedFrom ((World.ofStore s).run site.program moves).replies id).length := by
  rw [updatedFrom, World.replies, List.filterMap_filterMap, List.length_filterMap_eq_countP]
  exact countP_updatedFrom? site s moves Option.isSome rfl id

theorem updatesFrom_eq (id : Int64) (version : Int32) :
    ((World.ofStore s).run site.program moves).updatesFrom id version =
      (updatedFrom ((World.ofStore s).run site.program moves).replies id).count version := by
  rw [updatedFrom, World.replies, List.filterMap_filterMap, List.count_filterMap]
  exact countP_updatedFrom? site s moves (· == some version) rfl id

end Run

/-- Let operations of any clients run in any order of their requests, from a store without steps and
with a counter for their ids. At every point of the run the version of a step is the number of calls
that have updated it, and the step shows what was written under its id last. No two calls have updated
a step from the same version, and a call that has updated a step took it from the version that was
passed to the next. -/
theorem no_lost_update {site : Site} {s : Store} (hs : s.Reachable) {v : Int64}
    (hv : s.lastValue? site.counters site.sequence = some v)
    (hempty : (s.view site.steps).documents = []) (moves : List (Move Command)) :
    let w := (World.ofStore s).run site.program moves
    (∃ records : List StepRecord,
      (w.store.view site.steps).documents = records.map StepRecord.toDocument ∧
      ∀ r ∈ records, r.version.toInt = w.updates r.id ∧
        ∃ cap e, (writes w.replies r.id).getLast? = some (cap, e) ∧ r.Shows e cap) ∧
    (∀ id version, w.updatesFrom id version ≤ 1) ∧
    (∀ i client e reply, w.calls[i]? = some ⟨(client, .update e), .done reply⟩ →
      ∃ m ∈ w.history, m.call = i ∧ m.callLeft = ⟨(client, .update e), .done reply⟩ ∧
        ∃ id version, e.id = some id ∧ e.version = some version ∧
          m.Raises site.steps id version) ∧
    ∀ call ∈ w.calls, ∀ reply, call.left = .done reply → call.what.2.Answers reply := by
  intro w
  obtain ⟨held, value, records, hbooks⟩ :=
    (books_ofStore site hs.wellFormed hv hempty).run moves
  have hanswers : ∀ call ∈ w.calls, ∀ reply, call.left = .done reply →
      call.what.2.Answers reply := by
    have hprogram : ∀ command : Command,
        (site.program command).Asks site.Poses command.2.Answers := fun command =>
      Operation.asks_program command.2
    have hasks := (World.run_asking hprogram (motive := fun _ => True) (fun _ _ _ _ => trivial)
      (fun _ _ _ _ => trivial) (w := World.ofStore s) (by simp [World.ofStore]) trivial moves).1
    intro call hcall reply hdone
    have hcalled := hasks call hcall
    rwa [hdone] at hcalled
  refine ⟨⟨records, hbooks.ledger.documents, fun r hr => ⟨?_, hbooks.accounted.shown r hr⟩⟩, ?_, ?_,
    hanswers⟩
  · rw [updates_eq]
    exact hbooks.accounted.counted r hr
  · intro id version
    rw [updatesFrom_eq]
    have hmap := hbooks.accounted.ordered id
    have hn : ((updatedFrom w.replies id).map Int32.toInt).Nodup := by
      rw [hmap]
      exact List.nodup_range.map fun _ _ => Int.ofNat.inj
    exact List.nodup_iff_count_le_one.1 hn.of_map version
  · intro i client e reply hcall
    obtain ⟨m, hm, hi, hleft⟩ | hstart := World.exists_moment hcall
    · refine ⟨m, hm, hi, hleft, ?_⟩
      have hanswer := hanswers _ (List.mem_of_getElem? hcall) reply rfl
      cases reply with
      | updated updated =>
        obtain ⟨id, version, -, hid, hversion, -, -⟩ := hanswer
        refine ⟨id, version, hid, hversion, hbooks.raised m hm id version ?_⟩
        rw [hleft]
        show (if e.id = some id then e.version else none) = some version
        rw [if_pos hid, hversion]
      | _ => exact hanswer.elim
    · have hkeeps := keeps_program site (client, .update e)
      rw [← show Program.done reply = site.program (client, .update e) from hstart] at hkeeps
      exact absurd rfl (hkeeps.2 e)

/-- A store with a counter for the ids of steps. -/
def Store.seeded : Store :=
  (Store.inMemory.answer (.insertOne "counters"
    (Document.ofList [(idField, .string "step"), (Sequence.valueField, .ofInt64 0)]))).2

/-- An execution is saved, and two clients update it from version 0. -/
def updateRace : List (Move Command) :=
  [.start (.clerk, .save .opening), .ask 0, .ask 0, .ask 0,
    .start (.clerk, .update (.identified .opening 1 0)),
    .start (.clerk, .update (.identified .opening 1 0)), .ask 2, .ask 1, .ask 1]

theorem no_lost_update_in_race :
    Store.seeded.lastValue? "counters" "step" = some 0 ∧
      (Store.seeded.view "steps").documents = [] ∧
      ((World.ofStore .seeded).run Site.desk.program updateRace).updatesFrom 1 0 = 1 ∧
      ∃ records : List StepRecord,
        (((World.ofStore .seeded).run Site.desk.program updateRace).store.view "steps").documents =
          records.map StepRecord.toDocument ∧
        ∀ r ∈ records, r.version.toInt =
          ((World.ofStore .seeded).run Site.desk.program updateRace).updates r.id := by
  have hv : Store.seeded.lastValue? "counters" "step" = some 0 := by decide +kernel
  have hempty : (Store.seeded.view "steps").documents = [] :=
    List.isEmpty_iff.1 (by decide +kernel)
  have hcounter : Store.seeded.lastValue? Site.desk.counters Site.desk.sequence = some 0 := hv
  obtain ⟨⟨records, hdocuments, hrecords⟩, -⟩ :=
    no_lost_update (.answer _ .inMemory) hcounter hempty updateRace
  exact ⟨hv, hempty, by decide +kernel, records, hdocuments, fun r hr => (hrecords r hr).1⟩

end StepLedger

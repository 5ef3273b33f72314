import StepLedger.Proofs.Program
import StepLedger.Proofs.Sequence.Allocates
import StepLedger.Proofs.Store.Idle

/-!
# Allocations that fail

With `Strategy.compareAndSwap` a counter is decoded before it is written, and an allocation that fails
leaves the store as it is (`swap_eq_of_not_returned`). With `Strategy.atomicIncrement` it is decoded
after that: if its note is no text, its value is used up, and nobody gets it (`Store.Wastes`).
`Allocator.next_of_failure` says that nothing else is lost.
-/

namespace StepLedger

open Sequence

/-- The note of a document is there, but is no text. -/
def Document.BadNote (d : Document) : Prop :=
  ∃ note, d.get? noteField = some note ∧ ∀ text, note ≠ .string text

/-- What has a name and a value, and is no counter, has a bad note. -/
theorem Sequence.Counter.badNote_of_decode {d : Document} {name : String} {v : Int64}
    {e : DecodeError} (hid : d.get? idField = some (.string name))
    (hvalue : d.get? valueField = some (.number (.ofInt64 v))) (h : decode d = .error e) :
    d.BadNote := by
  have hnot : ∀ note, ¬ (d.get? noteField = none ∧ note = "" ∨
      d.get? noteField = some (.string note)) := fun note hnote => by
    rw [decode_eq_ok_iff (c := ⟨name, v, note⟩) |>.2 ⟨hid, hvalue, hnote⟩] at h
    cases h
  cases hnote : d.get? noteField with
  | none => exact absurd (.inl ⟨hnote, rfl⟩) (hnot "")
  | some note => exact ⟨note, hnote, fun text heq => hnot text (.inr (heq ▸ hnote))⟩

/-! ## Adding one -/

namespace Update

/-- To add one to a field, whatever it holds. -/
theorem increment_one_eq_ok {d d' : Document} {field : String} (h : increment d field 1 = .ok d') :
    ∃ v next, current d field = .ok v ∧ addChecked v 1 = some next ∧
      d' = d.set field (.ofInt64 next) := by
  obtain ⟨v, hv, h⟩ := Except.bind_eq_ok.1 h
  split at h
  · next next hnext => cases h; exact ⟨v, next, hv, hnext, rfl⟩
  · cases h

/-- Nothing is equal to what it is after one was added to it. -/
theorem not_same_increment_one {d : Document} {field : String} {v next : Int64}
    (hv : current d field = .ok v) (hnext : addChecked v 1 = some next) :
    ¬ (d.set field (.ofInt64 next)).same d = true := by
  intro hsame
  have hlt : next.toInt < 9223372036854775808 := next.toInt_lt
  have hd : d.get? field = some (.number (.ofInt64 next)) :=
    Document.get?_eq_of_same (Json.exact_ofInt64 next) (Json.Value.same_symm hsame)
      (Document.get?_set_self d field _)
  have hcurrent : current d field = .ok next := by
    simp [current, hd, Json.Number.toInt64?, Json.Number.ofInt64, hlt]
  rw [hv] at hcurrent
  exact ne_of_addChecked_one hnext (Except.ok.inj hcurrent).symm

end Update

namespace Store

/-- The store after differs in one document, which has the name for a key and a bad note: one was
added to its value. -/
def Wastes (s s' : Store) (collection name : String) : Prop :=
  ∃ (i : Nat) (d : Document) (v next : Int64), (s.view collection).documents[i]? = some d ∧
    d.get? idField = some (.string name) ∧ d.BadNote ∧
    Update.current d valueField = .ok v ∧ next.toInt = v.toInt + 1 ∧
    s.Becomes s' collection ((s.view collection).documents.set i (d.set valueField (.ofInt64 next)))

/-- One is added to the value of the document that has the name for a key, or there is none. -/
theorem increment_found {s s' : Store} {collection name : String} {found : Option Document}
    (hs : s.Reachable) (hanswer : s.findAndModify collection (.byId (.string name))
      (Update.empty.andInc valueField 1) ⟨true, false⟩ = (.ok found, s')) :
    s' = s ∨ ∃ (i : Nat) (d : Document) (v next : Int64),
      found = some (d.set valueField (.ofInt64 next)) ∧ (s.view collection).documents[i]? = some d ∧
      d.get? idField = some (.string name) ∧ Update.current d valueField = .ok v ∧
      Update.addChecked v 1 = some next ∧
      s.Becomes s' collection
        ((s.view collection).documents.set i (d.set valueField (.ofInt64 next))) := by
  obtain ⟨i, d, d', hfirst, happly, rfl, heffect⟩ | ⟨hnone, -⟩ :=
    findAndModify_ok hs.wellFormed hanswer
  · obtain ⟨hi, hsel⟩ := Collection.first?_eq_some hfirst
    have hid := (Filter.selects_byId_iff (Json.exact_string name)).1 hsel
    rw [Update.apply_increment (by decide)] at happly
    obtain ⟨v, next, hv, hnext, rfl⟩ := Update.increment_one_eq_ok happly
    have hbecomes := heffect.resolve_right fun hsame =>
      Update.not_same_increment_one hv hnext hsame.1
    exact .inr ⟨i, d, v, next, rfl, hi, hid, hv, hnext, hbecomes⟩
  · refine .inl (findAndModify_idles hs hanswer fun found c _ hop => ?_).eq
    rw [Collection.findAndModify, hnone] at hop
    cases hop
    rfl

end Store

namespace Sequence.Allocator

variable {s s' : Store} {collection name : String} {outcome : Program.Outcome Int64}

/-! ## By one request -/

/-- To add to a counter and then not to return a value leaves the store as it is or wastes a value. -/
theorem increment_of_not_returned (hs : s.Reachable)
    (h : (increment collection name).run Store.answer s = (outcome, s'))
    (hfail : ∀ n, outcome ≠ .returned n) :
    s' = s ∨ s.Wastes s' collection name ∧ ∃ e, outcome = .failed (.serialization e) := by
  cases hanswer : s.findAndModify collection (.byId (.string name))
      (Update.empty.andInc valueField 1) ⟨true, false⟩ with
  | mk result after =>
    cases result with
    | error e =>
      cases h.symm.trans (Program.run_ask_error hanswer)
      exact .inl (Store.findAndModify_idles hs hanswer nofun).eq
    | ok found =>
      have hrun : (increment collection name).run Store.answer s =
          ((Program.ofExcept (Counter.ofFound collection name found)).bind fun counter =>
            .done counter.value).run Store.answer after := Program.run_ask_ok hanswer
      rw [hrun] at h
      obtain rfl := Program.state_of_ofExcept_done h
      obtain hsame | ⟨i, d, v, next, rfl, hi, hid, hv, hnext, hbecomes⟩ :=
        Store.increment_found hs hanswer
      · exact .inl hsame
      cases hdecode : Counter.decode (d.set valueField (.ofInt64 next)) with
      | ok counter =>
        rw [ofFound_eq_ok hdecode] at h
        cases h
        exact absurd rfl (hfail counter.value)
      | error e =>
        rw [Counter.ofFound, hdecode] at h
        cases h
        obtain ⟨note, hnote, hbad⟩ := Counter.badNote_of_decode
          ((Document.get?_set_ne d (by decide) _).trans hid)
          (Document.get?_set_self d valueField _) hdecode
        rw [Document.get?_set_ne d (by decide)] at hnote
        exact .inr ⟨⟨i, d, v, next, hi, hid, ⟨note, hnote, hbad⟩, hv,
          Update.addChecked_eq_some_iff.1 hnext, hbecomes⟩, e, rfl⟩

/-! ## By rounds of reading and writing -/

/-- To write a counter as it was read, and then not to return a value, leaves the store as it is:
nobody has come between, so that the round is won. -/
theorem attempt_eq_of_not_returned (hs : s.Reachable) {rounds : Nat} {v next : Int64}
    (hv : s.lastValue? collection name = some v) (hnext : Update.addChecked v 1 = some next)
    (h : (attempt collection name rounds v next).run Store.answer s = (outcome, s'))
    (hfail : ∀ n, outcome ≠ .returned n) : s' = s := by
  cases hanswer : s.updateFirst collection
      ((Filter.byId (.string name)).and valueField (.ofInt64 v))
      (Update.empty.andSet valueField (.ofInt64 next)) with
  | mk result after =>
    cases result with
    | error e =>
      cases h.symm.trans (Program.run_ask_error hanswer)
      exact Store.updateFirst_eq_of_error hs hanswer
    | ok result =>
      have hrun : (attempt collection name rounds v next).run Store.answer s =
          (if result.matched = 1 then .done next else swap collection name rounds).run
            Store.answer after := Program.run_ask_ok hanswer
      obtain ⟨-, hne, -⟩ | ⟨hwon, -, -⟩ :=
        Store.swap_ok hs.wellFormed hv (Update.ne_of_addChecked_one hnext) hanswer
      · exact absurd rfl hne
      · rw [hrun, if_pos hwon] at h
        cases h
        exact absurd rfl (hfail next)

/-- To read a counter and write it, and then not to return a value, leaves the store as it is. -/
theorem swap_eq_of_not_returned (hs : s.Reachable) {rounds : Nat}
    (h : (swap collection name rounds).run Store.answer s = (outcome, s'))
    (hfail : ∀ n, outcome ≠ .returned n) : s' = s := by
  cases rounds with
  | zero => cases h; rfl
  | succ rounds =>
    rw [swap_succ_eq] at h
    obtain ⟨e, -, hfind⟩ | hfind := Store.find_eq s collection (.byId (.string name))
    · cases h.symm.trans (Program.run_ask_error hfind)
      rfl
    replace h := (Program.run_ask_ok hfind).symm.trans h
    cases hfound : Counter.ofFound collection name (s.counter? collection name) with
    | error e =>
      rw [observed, show List.head? _ = s.counter? collection name from rfl, hfound] at h
      cases h
      rfl
    | ok counter =>
      obtain ⟨d, hd, hdecode⟩ := ofFound_eq_ok_iff.1 hfound
      rw [observed_eq hd hdecode] at h
      cases hnext : Update.addChecked counter.value 1 with
      | none => rw [hnext] at h; cases h; rfl
      | some next =>
        rw [hnext] at h
        have hv := Store.lastValue?_eq_some_iff.2 ⟨d, counter, hd, hdecode, rfl⟩
        exact attempt_eq_of_not_returned hs hv hnext h hfail

/-! ## By either strategy -/

/-- An allocation that nobody interferes with and that returns no value leaves the store as it is,
archive and disk included. Only if it adds to the counter at once and the counter has a bad note, a
value may be stored that is not handed out. -/
theorem next_of_failure {a : Allocator} (hs : s.Reachable)
    (h : (a.next name).run Store.answer s = (outcome, s'))
    (hfail : ∀ n, outcome ≠ .returned n) :
    s' = s ∨ a.strategy = .atomicIncrement ∧ s.Wastes s' a.collection name ∧
      ∃ e, outcome = .failed (.serialization e) := by
  cases hname : checkName name with
  | error e => rw [next_of_error hname] at h; cases h; exact .inl rfl
  | ok _ =>
    replace h := congrArg (Program.run Store.answer s) (next_of_ok hname) |>.symm.trans h
    cases hstrategy : a.strategy with
    | atomicIncrement =>
      rw [hstrategy] at h
      exact (increment_of_not_returned hs h hfail).imp_right fun hwaste => ⟨rfl, hwaste⟩
    | compareAndSwap =>
      rw [hstrategy] at h
      exact .inl (swap_eq_of_not_returned hs h hfail)

/-- A store with a counter at one, whose note is a number. -/
def misnoted : Store :=
  (Store.inMemory.answer (.insertOne "counters" (Document.ofList
    [(idField, .string "steps"), (valueField, .ofInt64 1), (noteField, .ofInt64 5)]))).2

theorem reachable_misnoted : misnoted.Reachable := .answer _ .inMemory

/-- What a counter with a number for a note fails with. -/
def noteError : StoreError := .serialization (.invalidType "integer `5`" "a string")

theorem next_of_failure_of_misnoted :
    ((⟨"counters", .compareAndSwap, 1⟩ : Allocator).next "steps").run Store.answer misnoted =
      (.failed noteError, misnoted) := by
  have hfailed : (((⟨"counters", .compareAndSwap, 1⟩ : Allocator).next "steps").run
      Store.answer misnoted).1 = .failed noteError := by decide +kernel
  obtain hsame | ⟨hstrategy, -⟩ := next_of_failure reachable_misnoted (Prod.ext hfailed rfl) nofun
  · exact Prod.ext hfailed hsame
  · cases hstrategy

/-- The same counter, added to at once: the value two is stored, and no caller has got it. -/
theorem value_of_misnoted_is_wasted : misnoted.Reachable ∧
    (((⟨"counters", .atomicIncrement, 1⟩ : Allocator).next "steps").run Store.answer misnoted).1 =
        .failed noteError ∧
      (misnoted.counter? "counters" "steps").bind (·.get? valueField) = some (.number (.ofInt64 1)) ∧
      ((((⟨"counters", .atomicIncrement, 1⟩ : Allocator).next "steps").run
        Store.answer misnoted).2.counter? "counters" "steps").bind (·.get? valueField) =
          some (.number (.ofInt64 2)) := by
  exact ⟨reachable_misnoted, by decide +kernel, rfl, rfl⟩

end Sequence.Allocator

end StepLedger

import StepLedger.Proofs.Repository.Opening
import StepLedger.Proofs.Sequence.Holding
import StepLedger.Proofs.Store.Serving

/-!
# Sequences in a store that serves

Where a store serves the collection of a counter and nobody else is at work, a seed creates the counter
(`run_seed_new`) or answers with the one that is there (`run_seed_idle`), and the next value is the
successor of the last one, by either strategy and in the first round (`Allocator.run_next`).
-/

namespace StepLedger

open Sequence

namespace Store

variable {s s' : Store} {collection name : String}

section Requests

variable (hs : s.WellFormed) (h : s.Serves collection)
include hs h

/-- A counter that is not there is made. -/
theorem Serves.seed (hnone : s.counter? collection name = none) (initial : Int64) (note : String) :
    ∃ d s', s.findAndModify collection (.byId (.string name)) (Counter.seeding initial note)
        ⟨true, true⟩ = (.ok (some d), s') ∧ Counter.decode d = .ok ⟨name, initial, note⟩ ∧
      s.Advances s' collection name initial := by
  obtain ⟨e, herror⟩ | ⟨⟨found, c⟩, hop⟩ := Except.eq_error_or_ok
    ((s.view collection).findAndModify (.byId (.string name)) (Counter.seeding initial note) ⟨true, true⟩)
  · exact absurd herror (findAndModify_seeding_ne_error hs initial note e)
  · obtain ⟨s', hseed⟩ := h.findAndModify hs (Counter.isEmpty_seeding initial note) hop
    obtain ⟨d, rfl, hdecode, hcounter, hbecomes⟩ := seed_new hs hnone hseed
    refine ⟨d, s', hseed, hdecode, lastValue?_eq_some_iff.2 ⟨d, _, hcounter, hdecode, rfl⟩, ?_,
      hbecomes.others⟩
    have htouches : s.Touches s' collection name :=
      .added (Counter.decode_eq_ok_iff.1 hdecode).1 hbecomes
    exact fun other hne => htouches.counter?_eq hne

variable {v n : Int64} (hv : s.lastValue? collection name = some v)
  (hnext : Update.addChecked v 1 = some n)
include hv hnext

/-- One is added to a counter. -/
theorem Serves.increment : ∃ d counter s', s.findAndModify collection (.byId (.string name))
      (Update.empty.andInc valueField 1) ⟨true, false⟩ = (.ok (some d), s') ∧
    Counter.decode d = .ok counter ∧ counter.value = n ∧ s.Advances s' collection name n := by
  obtain ⟨i, d, counter, hfirst, -, -, hdecode, rfl⟩ := exists_counter hs hv
  have happly : (Update.empty.andInc valueField 1).apply d = .ok (d.set valueField (.ofInt64 n)) := by
    rw [Update.apply_increment (by decide),
      Update.increment_one (Counter.decode_eq_ok_iff.1 hdecode).2.1, hnext]
  have hop : (s.view collection).findAndModify (.byId (.string name)) (Update.empty.andInc valueField 1)
      ⟨true, false⟩ = .ok (some (d.set valueField (.ofInt64 n)),
        (s.view collection).replaceAt i d (d.set valueField (.ofInt64 n))) := by
    rw [Collection.findAndModify, hfirst]
    dsimp only
    rw [happly]
    rfl
  obtain ⟨s', hincrement⟩ := h.findAndModify hs (by rfl) hop
  obtain ⟨d', counter', hfound, hdecode', hnext', hadvances⟩ := increment_ok hs hv hincrement
  obtain rfl : counter'.value = n := Option.some.inj (hnext'.symm.trans hnext)
  exact ⟨d', counter', s', hfound ▸ hincrement, hdecode', rfl, hadvances⟩

/-- The successor of a value that is stored is written. -/
theorem Serves.swap : ∃ result s', s.updateFirst collection
      ((Filter.byId (.string name)).and valueField (.ofInt64 v))
      (Update.empty.andSet valueField (.ofInt64 n)) = (.ok result, s') ∧
    result.matched = 1 ∧ s.Advances s' collection name n := by
  have happly : ∀ d, (Update.empty.andSet valueField (.ofInt64 n)).apply d =
      .ok (d.set valueField (.ofInt64 n)) := Update.apply_andSet (by decide) _
  have hop : ∃ result c, (s.view collection).updateFirst
      ((Filter.byId (.string name)).and valueField (.ofInt64 v))
      (Update.empty.andSet valueField (.ofInt64 n)) = .ok (result, c) := by
    rw [Collection.updateFirst]
    split
    · exact ⟨_, _, rfl⟩
    · rw [happly]
      exact ⟨_, _, rfl⟩
  obtain ⟨result, c, hop⟩ := hop
  obtain ⟨s', hswap⟩ := h.updateFirst hs (Update.isEmpty_eq_false (Document.get?_set_self _ valueField _))
    hop
  obtain ⟨-, hne, -⟩ | ⟨hmatched, -, hadvances⟩ :=
    swap_ok hs hv (Update.ne_of_addChecked_one hnext) hswap
  · exact absurd rfl hne
  · exact ⟨result, s', hswap, hmatched, hadvances⟩

end Requests

end Store

/-! ## Seeding -/

namespace Sequence.Counter

variable {s : Store} {collection name : String} (hname : Sequence.checkName name = .ok ())
  (hs : s.WellFormed) (h : s.Serves collection)
include hname hs h

/-- A seed creates its counter. -/
theorem run_seed_new (hnone : s.counter? collection name = none) (initial : Int64) (note : String) :
    ∃ s', (seed collection name initial note).run Store.answer s =
        (.returned ⟨name, initial, note⟩, s') ∧ s.Advances s' collection name initial := by
  obtain ⟨d, s', hseed, hdecode, hadvances⟩ := h.seed hs hnone initial note
  exact ⟨s', run_seed_ok hname hseed hdecode, hadvances⟩

/-- A seed of a counter that is kept in files answers with it and changes nothing. -/
theorem run_seed_idle {v : Int64} (hv : s.lastValue? collection name = some v) {a : Archive}
    (ha : s.archive = some a) (initial : Int64) (note : String) :
    ∃ counter, (seed collection name initial note).run Store.answer s = (.returned counter, s) ∧
      counter.id = name ∧ counter.value = v := by
  obtain ⟨d, counter, hseed, hdecode, hid, hvalue⟩ :=
    Store.seed_idle hs hv ha h.admitted initial note
  exact ⟨counter, run_seed_ok hname hseed hdecode, hid, hvalue⟩

end Sequence.Counter

/-! ## Allocating -/

namespace Sequence.Allocator

variable {s : Store} {a : Allocator} {name : String} {v n : Int64}

/-- The next value is the one after the last. -/
theorem run_next (hname : checkName name = .ok ()) (hrounds : 0 < a.rounds) (hs : s.WellFormed)
    (h : s.Serves a.collection) (hv : s.lastValue? a.collection name = some v)
    (hnext : Update.addChecked v 1 = some n) :
    ∃ s', (a.next name).run Store.answer s = (.returned n, s') ∧
      s.Advances s' a.collection name n := by
  rw [next_of_ok hname]
  cases a.strategy with
  | atomicIncrement =>
    obtain ⟨d, counter, s', hincrement, hdecode, rfl, hadvances⟩ := h.increment hs hv hnext
    refine ⟨s', ?_, hadvances⟩
    dsimp only
    rw [increment_eq]
    refine (Program.run_ask_ok hincrement).trans ?_
    rw [ofFound_eq_ok hdecode]
    rfl
  | compareAndSwap =>
    obtain ⟨rounds, hrounds⟩ := Nat.exists_eq_add_of_lt hrounds
    rw [Nat.zero_add] at hrounds
    obtain ⟨result, s', hswap, hmatched, hadvances⟩ := h.swap hs hv hnext
    obtain ⟨d, counter, hd, hdecode, rfl⟩ := Store.lastValue?_eq_some_iff.1 hv
    refine ⟨s', ?_, hadvances⟩
    dsimp only
    rw [hrounds, swap_succ_eq]
    have hfind := Store.find_of_check h.admitted (.byId (.string name))
    refine (Program.run_ask_ok hfind).trans ?_
    rw [observed_eq hd hdecode, hnext]
    refine (Program.run_ask_ok hswap).trans ?_
    rw [if_pos hmatched]
    rfl

end Sequence.Allocator

end StepLedger

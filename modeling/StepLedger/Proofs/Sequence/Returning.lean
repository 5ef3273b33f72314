import StepLedger.Proofs.Sequence.Failing

/-!
# What an allocation has done that returns a value

With nobody else asking in between, an allocation that returns a value has left that value in the
counter, and it is the successor of the value that was there (`Allocator.next_returned`). A counter
that lacks a value is taken for one at zero by an increment, so there may have been none.
-/

namespace StepLedger

open Sequence

namespace Store

variable {s s' : Store} {collection name : String}

/-- What an increment answers with is the counter after it. -/
theorem advances_of_increment (hs : s.WellFormed) {d : Document} {counter : Counter}
    (h : s.findAndModify collection (.byId (.string name)) (Update.empty.andInc valueField 1)
      ⟨true, false⟩ = (.ok (some d), s')) (hdecode : Counter.decode d = .ok counter) :
    s.Advances s' collection name counter.value := by
  have hs' := hs.of_answer (.findAndModify _ _ _ _) h
  obtain ⟨i, before, after, hfirst, happly, hfound, heffect⟩ | ⟨-, ⟨-, hnone, -⟩ | ⟨hup, -⟩⟩ :=
    findAndModify_ok hs h
  · obtain rfl : d = after := Option.some.inj hfound
    obtain ⟨hi, hsel⟩ := Collection.first?_eq_some hfirst
    have hid := (Filter.selects_byId_iff (Json.exact_string name)).1 hsel
    have hafter := (Update.get?_id_of_apply happly).trans hid
    rw [Update.apply_increment (by decide)] at happly
    obtain ⟨v, next, hv, hnext, rfl⟩ := Update.increment_one_eq_ok happly
    have hbecomes := heffect.resolve_right fun hsame =>
      Update.not_same_increment_one hv hnext hsame.1
    exact advances_of_becomes hs' hi hid hafter hdecode hbecomes
  · cases hnone
  · cases hup

end Store

namespace Sequence

variable {s s' : Store} {collection name : String} {n : Int64}

/-- An allocation that returns a value has advanced the counter to it. -/
theorem Allocates.returned {program : Program Int64} (h : Allocates collection name program)
    (hs : s.WellFormed) {v : Int64} (hv : s.lastValue? collection name = some v)
    (hrun : program.run Store.answer s = (.returned n, s')) :
    Update.addChecked v 1 = some n ∧ s.Advances s' collection name n := by
  induction program generalizing s with
  | done n => exact h.elim
  | fail e => exact h.elim
  | stalled => cases hrun
  | ask request next ih =>
    have hasked := h s v hs hv
    have hafter := hs.answer request
    rw [Program.run] at hrun
    generalize s.answer request = outcome at hasked hrun hafter
    cases hasked with
    | refused => cases hrun
    | exhausted _ _ left =>
      dsimp only at hrun
      rw [left] at hrun
      cases hrun
    | looked same left =>
      obtain ⟨hnext, hadvances⟩ :=
        ih _ left hafter ((Store.lastValue?_of_alike same _ _).trans hv) hrun
      refine ⟨hnext, hadvances.value, fun other hne => ?_, fun other hne => ?_⟩
      · rw [hadvances.counters other hne, Store.counter?_of_alike same]
      · rw [hadvances.others other hne, same]
    | advanced successor change left =>
      dsimp only at hrun
      rw [left] at hrun
      cases hrun
      exact ⟨successor, change⟩

namespace Allocator

variable {rounds : Nat} {e : StoreError}

/-! ## Stores that refuse -/

theorem increment_refused (hcheck : s.check collection = .error e) :
    (increment collection name).run Store.answer s = (.failed e, s) := by
  have hmodify : s.answer (.findAndModify collection (.byId (.string name))
      (Update.empty.andInc valueField 1) ⟨true, false⟩) = (.error e, s) :=
    (Store.findAndModify_eq_mutate s collection _ _ rfl).trans (Store.mutate_of_refused hcheck)
  exact Program.failed_of_eq_ask increment_eq hmodify

theorem swap_refused (hcheck : s.check collection = .error e) :
    (swap collection name (rounds + 1)).run Store.answer s = (.failed e, s) := by
  have hfind : s.answer (.find collection (.byId (.string name))) = (.error e, s) :=
    Store.read_of_refused hcheck
  exact Program.failed_of_eq_ask (swap_succ_eq rounds) hfind

/-! ## Programs that return -/

/-- An increment that returns a value has advanced the counter to it. -/
theorem increment_returned (hs : s.WellFormed)
    (h : (increment collection name).run Store.answer s = (.returned n, s')) :
    s.Advances s' collection name n := by
  obtain ⟨found, _, hrequest, hfound⟩ := Program.bind_returned h
  have hanswer := Program.request_returned hrequest
  obtain ⟨counter, hcounter, hreturn⟩ := Program.ofExcept_bind_returned hfound
  obtain ⟨d, rfl, hdecode⟩ := ofFound_eq_ok_iff.1 hcounter
  cases hreturn
  exact Store.advances_of_increment hs hanswer hdecode

/-- Rounds that return a value have read one first. -/
theorem exists_lastValue_of_swap
    (h : (swap collection name rounds).run Store.answer s = (.returned n, s')) :
    ∃ v, s.lastValue? collection name = some v := by
  cases rounds with
  | zero => cases h
  | succ rounds =>
    obtain ⟨e, -, hfind⟩ | hfind := Store.find_eq s collection (.byId (.string name))
    · have hanswer : s.answer (.find collection (.byId (.string name))) = (.error e, s) := hfind
      cases (Program.failed_of_eq_ask (swap_succ_eq rounds) hanswer).symm.trans h
    · have hanswer : s.answer (.find collection (.byId (.string name))) = (.ok _, s) := hfind
      have hobserved := (Program.run_of_eq_ask (swap_succ_eq rounds) hanswer).symm.trans h
      obtain ⟨counter, hcounter, -⟩ := Program.ofExcept_bind_returned hobserved
      obtain ⟨d, hd, hdecode⟩ := ofFound_eq_ok_iff.1 hcounter
      exact ⟨counter.value, Store.lastValue?_eq_some_iff.2 ⟨d, counter, hd, hdecode, rfl⟩⟩

/-- The next value comes from an increment or from rounds. -/
theorem next_cases {a : Allocator} (h : (a.next name).run Store.answer s = (.returned n, s')) :
    checkName name = .ok () ∧
      ((increment a.collection name).run Store.answer s = (.returned n, s') ∨
        (swap a.collection name a.rounds).run Store.answer s = (.returned n, s')) := by
  cases hname : checkName name with
  | error e =>
    rw [next_of_error hname] at h
    cases h
  | ok _ =>
    rw [next_of_ok hname] at h
    cases hstrategy : a.strategy with
    | atomicIncrement => exact ⟨rfl, .inl (by rwa [hstrategy] at h)⟩
    | compareAndSwap => exact ⟨rfl, .inr (by rwa [hstrategy] at h)⟩

/-- What is returned as the next value is the successor of the last value, if there is one, and is
the last value then. -/
theorem next_returned {a : Allocator} (hs : s.WellFormed)
    (h : (a.next name).run Store.answer s = (.returned n, s')) :
    s.Advances s' a.collection name n ∧
      ∀ v, s.lastValue? a.collection name = some v → Update.addChecked v 1 = some n := by
  obtain ⟨hname, hincrement | hswap⟩ := next_cases h
  · exact ⟨increment_returned hs hincrement,
      fun v hv => ((allocates_next hname).returned hs hv h).1⟩
  · obtain ⟨v, hv⟩ := exists_lastValue_of_swap hswap
    exact ⟨((allocates_swap a.rounds).returned hs hv hswap).2,
      fun v hv => ((allocates_next hname).returned hs hv h).1⟩

/-- A store that returns the next value admits requests about the counter. -/
theorem check_of_next {a : Allocator}
    (h : (a.next name).run Store.answer s = (.returned n, s')) : s.check a.collection = .ok () := by
  cases hcheck : s.check a.collection with
  | ok _ => rfl
  | error e =>
    obtain ⟨-, hincrement | hswap⟩ := next_cases h
    · cases (increment_refused hcheck).symm.trans hincrement
    · cases hrounds : a.rounds with
      | zero =>
        rw [hrounds] at hswap
        cases hswap
      | succ rounds =>
        rw [hrounds] at hswap
        cases (swap_refused hcheck).symm.trans hswap

end Allocator

end Sequence

end StepLedger

import StepLedger.Proofs.Document.Sums
import StepLedger.Proofs.Sequence.Failing
import StepLedger.Proofs.Store.Durable

/-!
# What an allocation spends

Whether an allocation returns a value or not, and whatever the condition in which each of its requests
finds the disk, it takes one value at most: the documents are as before, or one has been added to the
value of the counter (`Store.Spent`). Each request leaves the documents as they are, or it adds one and
is the last (`Store.spent_findAndModify`, `Store.spent_updateFirst`); so the whole allocation does the
same (`Allocator.spent_next`).
-/

namespace StepLedger

open Sequence

namespace Store

variable {s between s' : Store} {collection name : String}

/-- One document differs, which has the name for its key: one was added to its value. -/
def Increments (s s' : Store) (collection name : String) : Prop :=
  ∃ (i : Nat) (d : Document) (v : Int) (next : Int64), (s.view collection).documents[i]? = some d ∧
    d.get? idField = some (.string name) ∧ Update.CountsAs (d.get? valueField) v ∧
    next.toInt = v + 1 ∧
    s.Becomes s' collection ((s.view collection).documents.set i (d.set valueField (.ofInt64 next)))

/-- All documents are as before, or one was added to the value of a counter. -/
def Spent (s s' : Store) (collection name : String) : Prop :=
  s.Alike s' ∨ s.Increments s' collection name

theorem Spent.view_ne (h : s.Spent s' collection name) {other : String} (hne : other ≠ collection) :
    s'.view other = s.view other := by
  obtain halike | ⟨_, _, _, _, -, -, -, -, hbecomes⟩ := h
  · exact halike other
  · exact hbecomes.others other hne

theorem Spent.of_alike (halike : s.Alike between) (h : between.Spent s' collection name) :
    s.Spent s' collection name := by
  obtain halike' | ⟨i, d, v, next, hi, hid, hv, hnext, hbecomes⟩ := h
  · exact .inl (halike.trans halike')
  · rw [halike collection] at hi hbecomes
    exact .inr ⟨i, d, v, next, hi, hid, hv, hnext, hbecomes.documents, fun other hne =>
      (hbecomes.others other hne).trans (halike other)⟩

theorem Spent.alike (h : s.Spent between collection name) (halike : between.Alike s') :
    s.Spent s' collection name := by
  obtain halike' | ⟨i, d, v, next, hi, hid, hv, hnext, hbecomes⟩ := h
  · exact .inl (halike'.trans halike)
  · exact .inr ⟨i, d, v, next, hi, hid, hv, hnext, by rw [halike, hbecomes.documents],
      fun other hne => (halike other).trans (hbecomes.others other hne)⟩

/-! ## One request -/

/-- To add to a counter does so, or leaves the documents as they are. -/
theorem spent_findAndModify (hs : s.Reachable) {result : Except StoreError (Option Document)}
    (h : s.findAndModify collection (.byId (.string name)) (Update.empty.andInc valueField 1)
      ⟨true, false⟩ = (result, s')) : s.Spent s' collection name := by
  cases result with
  | error e => exact .inl (findAndModify_error hs.wellFormed h).1
  | ok found =>
    obtain rfl | ⟨i, d, v, next, -, hi, hid, hv, hnext, hbecomes⟩ := increment_found hs h
    · exact .inl (Alike.refl _)
    · exact .inr ⟨i, d, v.toInt, next, hi, hid, Update.current_eq_ok_iff.1 hv,
        Update.addChecked_eq_some_iff.1 hnext, hbecomes⟩

/-- To write the successor of a value over it adds one, or leaves the documents as they are. Where
nothing matches it does the latter. -/
theorem spent_updateFirst (hs : s.WellFormed) {v next : Int64}
    (hnext : Update.addChecked v 1 = some next) {result : Except StoreError UpdateResult}
    (h : s.updateFirst collection ((Filter.byId (.string name)).and valueField (.ofInt64 v))
      (Update.empty.andSet valueField (.ofInt64 next)) = (result, s')) :
    s.Spent s' collection name ∧ ∀ answer, result = .ok answer → answer.matched ≠ 1 → s.Alike s' := by
  cases result with
  | error e => exact ⟨.inl (updateFirst_error hs h), nofun⟩
  | ok answer =>
    obtain ⟨-, hnone, halike⟩ | ⟨i, d, d', hfirst, happly, hone, heffect⟩ := updateFirst_ok hs h
    · exact ⟨.inl halike, fun _ _ _ => halike⟩
    refine ⟨?_, fun answer' heq hne => absurd hone (Except.ok.inj heq ▸ hne)⟩
    obtain ⟨hi, hselected⟩ := Collection.first?_eq_some hfirst
    obtain ⟨hid, hvalue⟩ := (Filter.selects_byId_and_iff (Json.exact_string name)
      (Json.exact_ofInt64 v)).1 hselected
    rw [Update.apply_andSet (by decide)] at happly
    cases happly
    obtain hbecomes | ⟨-, halike⟩ := heffect
    · exact .inr ⟨i, d, v.toInt, next, hi, hid, hvalue ▸ Update.countsAs_ofInt64.2 rfl,
        Update.addChecked_eq_some_iff.1 hnext, hbecomes⟩
    · exact .inl halike

theorem Reachable.under (hs : s.Reachable) (condition : Disk.Condition) :
    (s.under condition).Reachable := by
  cases ha : s.archive with
  | none =>
    have hsame : s.under condition = s := by
      obtain ⟨collections, archive, closed⟩ := s
      cases ha
      rfl
    rwa [hsame]
  | some a =>
    have hon := hs.onDisk ⟨a.disk.files, condition.now, condition.refused⟩
    rw [Store.onDisk, ha] at hon
    rw [Store.under, ha]
    exact hon

end Store

namespace Scheduled

variable {t t' : Scheduled}

theorem reachable_met (ht : t.store.Reachable) : t.met.Reachable := by
  obtain ⟨s, conditions⟩ := t
  cases conditions with
  | nil => exact ht
  | cons condition conditions => exact Store.Reachable.under ht condition

/-- A request is answered by the store as it finds it. -/
theorem answer_met {request : Request} {result : Except StoreError request.Answer}
    (h : t.answer request = (result, t')) : t.met.answer request = (result, t'.store) := by
  cases h
  rfl

theorem reachable_answer (ht : t.store.Reachable) {request : Request}
    {result : Except StoreError request.Answer} (h : t.answer request = (result, t')) :
    t'.store.Reachable := by
  have hanswer := answer_met h
  have hreachable := (reachable_met ht).answer request
  rwa [hanswer] at hreachable

theorem reachable_run {α : Type} {program : Program α} {outcome : Program.Outcome α}
    (ht : t.store.Reachable) (h : program.run Scheduled.answer t = (outcome, t')) :
    t'.store.Reachable := by
  have hafter := (Program.asks_true program).run (motive := fun t : Scheduled => t.store.Reachable)
    (fun t request ht _ => reachable_answer ht (Prod.mk.eta (p := t.answer request)).symm) ht
  rwa [h] at hafter

end Scheduled

/-! ## All requests -/

namespace Sequence.Allocator

variable {t t' : Scheduled} {collection name : String} {outcome : Program.Outcome Int64}

theorem spent_increment (ht : t.store.Reachable)
    (h : (increment collection name).run Scheduled.answer t = (outcome, t')) :
    t.store.Spent t'.store collection name := by
  cases hanswer : t.answer (.findAndModify collection (.byId (.string name))
      (Update.empty.andInc valueField 1) ⟨true, false⟩) with
  | mk result after =>
    have hspent := (Store.spent_findAndModify (Scheduled.reachable_met ht)
      (Scheduled.answer_met hanswer)).of_alike t.alike_met
    cases result with
    | error e =>
      cases h.symm.trans (Program.run_ask_error hanswer)
      exact hspent
    | ok found =>
      obtain rfl := Program.state_of_ofExcept_done ((Program.run_ask_ok hanswer).symm.trans h)
      exact hspent

theorem spent_attempt {rounds : Nat} {v next : Int64} (ht : t.store.Reachable)
    (hnext : Update.addChecked v 1 = some next)
    (hrest : ∀ {t t' : Scheduled} {outcome : Program.Outcome Int64}, t.store.Reachable →
      (swap collection name rounds).run Scheduled.answer t = (outcome, t') →
      t.store.Spent t'.store collection name)
    (h : (attempt collection name rounds v next).run Scheduled.answer t = (outcome, t')) :
    t.store.Spent t'.store collection name := by
  cases hanswer : t.answer (.updateFirst collection
      ((Filter.byId (.string name)).and valueField (.ofInt64 v))
      (Update.empty.andSet valueField (.ofInt64 next))) with
  | mk result after =>
    obtain ⟨hspent, hlost⟩ := Store.spent_updateFirst (Scheduled.reachable_met ht).wellFormed hnext
      (Scheduled.answer_met hanswer)
    replace hspent := hspent.of_alike t.alike_met
    cases result with
    | error e =>
      cases h.symm.trans (Program.run_ask_error hanswer)
      exact hspent
    | ok result =>
      have hrun : (if result.matched = 1 then .done next else swap collection name rounds).run
          Scheduled.answer after = (outcome, t') := (Program.run_ask_ok hanswer).symm.trans h
      split at hrun
      · cases hrun
        exact hspent
      · next hne =>
        have hlater := hrest (Scheduled.reachable_answer ht hanswer) hrun
        exact hlater.of_alike (t.alike_met.trans (hlost result rfl hne))

theorem spent_observed {rounds : Nat} {found : List Document} (ht : t.store.Reachable)
    (hrest : ∀ {t t' : Scheduled} {outcome : Program.Outcome Int64}, t.store.Reachable →
      (swap collection name rounds).run Scheduled.answer t = (outcome, t') →
      t.store.Spent t'.store collection name)
    (h : (observed collection name rounds found).run Scheduled.answer t = (outcome, t')) :
    t.store.Spent t'.store collection name := by
  cases hfound : Counter.ofFound collection name found.head? with
  | error e =>
    have hfail : observed collection name rounds found = .fail e :=
      Program.ofExcept_bind_error hfound
    rw [hfail] at h
    cases h
    exact .inl (Store.Alike.refl _)
  | ok counter =>
    obtain ⟨d, hd, hdecode⟩ := ofFound_eq_ok_iff.1 hfound
    rw [observed_eq hd hdecode] at h
    cases hnext : Update.addChecked counter.value 1 with
    | none =>
      rw [hnext] at h
      cases h
      exact .inl (Store.Alike.refl _)
    | some next =>
      rw [hnext] at h
      exact spent_attempt ht hnext hrest h

/-- However many rounds are made, only the last one adds to the counter. -/
theorem spent_swap {rounds : Nat} (ht : t.store.Reachable)
    (h : (swap collection name rounds).run Scheduled.answer t = (outcome, t')) :
    t.store.Spent t'.store collection name := by
  induction rounds generalizing t t' outcome with
  | zero =>
    cases h
    exact .inl (Store.Alike.refl _)
  | succ rounds ih =>
    rw [swap_succ_eq] at h
    cases hanswer : t.answer (.find collection (.byId (.string name))) with
    | mk result after =>
      have halike : t.store.Alike after.store := by
        have hsnd := congrArg Prod.snd (Scheduled.answer_met hanswer)
        rw [Store.answer, Store.snd_find] at hsnd
        have hsame : t.met = after.store := hsnd
        exact hsame ▸ t.alike_met
      have hafter := Scheduled.reachable_answer ht hanswer
      cases result with
      | error e =>
        cases h.symm.trans (Program.run_ask_error hanswer)
        exact .inl halike
      | ok found =>
        exact (spent_observed hafter ih ((Program.run_ask_ok hanswer).symm.trans h)).of_alike halike

/-- An allocation takes one value at most, by either strategy. -/
theorem spent_next {a : Allocator} (ht : t.store.Reachable)
    (h : (a.next name).run Scheduled.answer t = (outcome, t')) :
    t.store.Spent t'.store a.collection name := by
  cases hname : checkName name with
  | error e =>
    rw [next_of_error hname] at h
    cases h
    exact .inl (Store.Alike.refl _)
  | ok _ =>
    replace h := congrArg (Program.run Scheduled.answer t) (next_of_ok hname) |>.symm.trans h
    cases hstrategy : a.strategy with
    | atomicIncrement =>
      rw [hstrategy] at h
      exact spent_increment ht h
    | compareAndSwap =>
      rw [hstrategy] at h
      exact spent_swap ht h

end Sequence.Allocator

end StepLedger

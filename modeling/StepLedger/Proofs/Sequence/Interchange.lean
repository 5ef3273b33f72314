import StepLedger.Proofs.Sequence.Returning
import StepLedger.Proofs.Sequence.Standing

/-!
# Either strategy does the same

With nobody else asking in between, an allocation by one strategy ends as one by the other does
(`Allocator.either_strategy`). The strategies ask for different updates of one document, and a
store makes the same of both (`Store.swap_eq_increment`), whether it keeps an archive or not and
whether that can be written or not (`Store.mutate_map`).
-/

namespace StepLedger

open Sequence

namespace Store

variable {s s' : Store} {collection name : String}

/-! ## Operations that differ in their answers only -/

section Map

variable {α β : Type} (g : α → β)

theorem commit_map (s : Store) (c : Collection) (outcome : Except StoreError α × Collection) :
    s.commit c (Prod.map (Except.map g) id outcome) =
      Prod.map (Except.map g) id (s.commit c outcome) := by
  unfold commit
  cases s.archive with
  | none => rfl
  | some archive =>
    dsimp only [Prod.map_snd, id]
    split
    · rfl
    · cases archive.save outcome.2 with
      | mk saved archive' => cases saved <;> rfl

/-- Two operations that make the same of the collection with a name make the same of the store. -/
theorem mutate_map {create : Bool} (absent : α)
    {operation : Collection → Except StoreError α × Collection}
    {other : Collection → Except StoreError β × Collection}
    (h : other (s.view name) = Prod.map (Except.map g) id (operation (s.view name))) :
    s.mutate name create (g absent) other =
      Prod.map (Except.map g) id (s.mutate name create absent operation) := by
  unfold mutate
  cases s.check name with
  | error e => rfl
  | ok _ =>
    cases hc : s.collection? name with
    | some c =>
      rw [view, hc, Option.getD_some] at h
      dsimp only
      rw [h, commit_map]
    | none =>
      cases create with
      | false => rfl
      | true =>
        rw [view, hc, Option.getD_none] at h
        simp only [if_true]
        rw [h, commit_map]

end Map

/-! ## The two updates of a counter -/

/-- What is answered to an update of a document that is found and changes, or is not found. -/
def changedIfFound : Option Document → UpdateResult
  | none => ⟨0, 0⟩
  | some _ => ⟨1, 1⟩

/-- To write the successor of the last value, on the condition that it is the last value, does what
adding one does. -/
theorem swap_eq_increment (hs : s.WellFormed) {v next : Int64}
    (hv : s.lastValue? collection name = some v) (hnext : Update.addChecked v 1 = some next) :
    s.updateFirst collection ((Filter.byId (.string name)).and valueField (.ofInt64 v))
        (Update.empty.andSet valueField (.ofInt64 next)) =
      Prod.map (Except.map changedIfFound) id (s.findAndModify collection (.byId (.string name))
        (Update.empty.andInc valueField 1) ⟨true, false⟩) := by
  obtain ⟨i, d, counter, hfirst, hi, hid, hdecode, rfl⟩ := exists_counter hs hv
  have hvalue := (Counter.decode_eq_ok_iff.1 hdecode).2.1
  have hmodify : orUnchanged (·.findAndModify (.byId (.string name))
      (Update.empty.andInc valueField 1) ⟨true, false⟩) (s.view collection) =
        (.ok (some (d.set valueField (.ofInt64 next))),
          (s.view collection).replaceAt i d (d.set valueField (.ofInt64 next))) := by
    refine orUnchanged_of_ok ?_
    rw [Collection.findAndModify, hfirst]
    dsimp only
    rw [Update.apply_increment (by decide), Update.increment_one hvalue, hnext]
    rfl
  have hupdate : orUnchanged (·.updateFirst
      ((Filter.byId (.string name)).and valueField (.ofInt64 counter.value))
      (Update.empty.andSet valueField (.ofInt64 next))) (s.view collection) =
        (.ok ⟨1, 1⟩, (s.view collection).replaceAt i d (d.set valueField (.ofInt64 next))) := by
    have hsel := (Filter.selects_byId_and_iff (Json.exact_string name)
      (Json.exact_ofInt64 counter.value)).2 ⟨hid, hvalue⟩
    have hchanged := Counter.not_same_set_value hvalue (Update.ne_of_addChecked_one hnext)
    refine orUnchanged_of_ok ?_
    rw [Collection.updateFirst, (Collection.first?_eq_some_iff (hs collection).1
      (Filter.idValue?_byId_and _ _ _) (Json.exact_string name)).2 ⟨hi, hsel⟩]
    dsimp only
    rw [Update.apply_andSet (by decide), Except.ok_bind, if_neg hchanged]
    rfl
  have hset : (Update.empty.andSet valueField (.ofInt64 next)).isEmpty = false :=
    Update.isEmpty_eq_false (Document.get?_set_self _ valueField _)
  rw [updateFirst_eq_mutate s collection _ hset, findAndModify_eq_mutate s collection _ _ rfl]
  refine mutate_map changedIfFound none (hupdate.trans ?_)
  rw [hmodify]
  rfl

/-! ## Requests that come to nothing -/

/-- What is answered where the collection stays as it is. -/
theorem fst_commit_of_same {α : Type} (s : Store) (c : Collection) (result : Except StoreError α) :
    (s.commit c (result, c)).1 = result := by
  unfold commit
  cases s.archive with
  | none => rfl
  | some archive => exact congrArg Prod.fst (if_pos rfl)

/-- What is answered where nothing is created and the collection stays as it is. -/
theorem findAndModify_of_same (hs : s.Reachable) (hcheck : s.check collection = .ok ()) {f : Filter}
    {u : Update} (hu : u.isEmpty = false) {result : Except StoreError (Option Document)}
    (hop : orUnchanged (·.findAndModify f u ⟨true, false⟩) (s.view collection) =
      (result, s.view collection)) : s.findAndModify collection f u ⟨true, false⟩ = (result, s) := by
  have hresult : (s.findAndModify collection f u ⟨true, false⟩).1 = result := by
    rw [findAndModify_eq_mutate s collection f _ hu, mutate, hcheck]
    cases hc : s.collection? collection with
    | some c =>
      rw [view, hc, Option.getD_some] at hop
      dsimp only
      rw [hop, fst_commit_of_same]
    | none =>
      rw [view, hc, Option.getD_none,
        orUnchanged_of_ok (Collection.findAndModify_empty collection f u rfl)] at hop
      exact congrArg Prod.fst hop
  refine Prod.ext hresult (findAndModify_idles hs rfl fun found c _ hop' => ?_).eq
  rw [orUnchanged_of_ok hop'] at hop
  exact congrArg Prod.snd hop

/-- Only a counter that can be decoded has a last value. -/
theorem decode_of_lastValue? {v : Int64} (hv : s.lastValue? collection name = some v) :
    ∀ d, s.counter? collection name = some d → ∃ c, Counter.decode d = .ok c := by
  obtain ⟨d, c, hd, hdecode, -⟩ := lastValue?_eq_some_iff.1 hv
  intro d' hd'
  obtain rfl := Option.some.inj (hd.symm.trans hd')
  exact ⟨c, hdecode⟩

end Store

/-! ## Programs that end alike -/

/-- Carried out on a store, two programs end alike: they return the same value and leave the same
store behind, or they fail with errors of one kind and leave the store as it is. -/
inductive Program.EndAlike {α : Type} (s : Store) (p q : Program α) : Prop
  | returned {a : α} {s' : Store} (first : p.run Store.answer s = (.returned a, s'))
      (second : q.run Store.answer s = (.returned a, s'))
  | failed {e e' : StoreError} (first : p.run Store.answer s = (.failed e, s))
      (second : q.run Store.answer s = (.failed e', s)) (kind : e.kind = e'.kind)

namespace Sequence.Allocator

variable {s : Store} {collection name : String} {rounds : Nat}

/-- Neither strategy gets anywhere where a store refuses. -/
theorem alike_of_refused {e : StoreError} (hcheck : s.check collection = .error e) :
    Program.EndAlike s (increment collection name) (swap collection name (rounds + 1)) :=
  .failed (increment_refused hcheck) (swap_refused hcheck) rfl

section Admitted

variable (hs : s.Reachable) (hcheck : s.check collection = .ok ())
include hcheck

/-- A round begins with the counters that are found. -/
theorem run_swap : (swap collection name (rounds + 1)).run Store.answer s =
    (observed collection name rounds ((s.view collection).find (.byId (.string name)))).run
      Store.answer s := by
  rw [swap_succ_eq]
  exact Program.run_ask_ok (Store.find_of_check hcheck _)

include hs

/-- Neither strategy finds a counter that is not there. -/
theorem alike_of_absent (hnone : s.counter? collection name = none) :
    Program.EndAlike s (increment collection name) (swap collection name (rounds + 1)) := by
  have hmodify : s.answer (.findAndModify collection (.byId (.string name))
      (Update.empty.andInc valueField 1) ⟨true, false⟩) = (.ok none, s) := by
    refine Store.findAndModify_of_same hs hcheck rfl (Store.orUnchanged_of_ok ?_)
    rw [Collection.findAndModify, (Store.counter?_eq_none_iff hs.wellFormed).1 hnone]
    rfl
  have hadded : (increment collection name).run Store.answer s =
      (.failed (missing collection name), s) := Program.run_ask_ok hmodify
  have hread : (swap collection name (rounds + 1)).run Store.answer s =
      (.failed (missing collection name), s) := by
    rw [Store.counter?, List.head?_eq_none_iff] at hnone
    rw [run_swap hcheck, hnone]
    rfl
  exact .failed hadded hread rfl

/-- Neither strategy goes past the last word. -/
theorem alike_of_exhausted {v : Int64} (hv : s.lastValue? collection name = some v)
    (htop : Update.addChecked v 1 = none) :
    Program.EndAlike s (increment collection name) (swap collection name (rounds + 1)) := by
  obtain ⟨i, d, counter, hfirst, hi, hid, hdecode, rfl⟩ := Store.exists_counter hs.wellFormed hv
  have hmodify : s.answer (.findAndModify collection (.byId (.string name))
      (Update.empty.andInc valueField 1) ⟨true, false⟩) =
        (.error (.invalidArgument (.overflow valueField)), s) := by
    refine Store.findAndModify_of_same hs hcheck rfl (Store.orUnchanged_of_error ?_)
    rw [Collection.findAndModify, hfirst]
    dsimp only
    rw [Update.apply_increment (by decide),
      Update.increment_one (Counter.decode_eq_ok_iff.1 hdecode).2.1, htop]
    rfl
  have hcounter : s.counter? collection name = some d :=
    (Store.counter?_eq_some_iff hs.wellFormed).2 ⟨i, hi, hid⟩
  have hread : (swap collection name (rounds + 1)).run Store.answer s =
      (.failed (.invalidArgument (.exhausted name)), s) := by
    rw [run_swap hcheck, observed_eq hcounter hdecode, htop]
    rfl
  exact .failed (Program.run_ask_error hmodify) hread rfl

/-- Either strategy hands out the successor of the last value, unless it cannot be written. -/
theorem alike_of_successor {v next : Int64} (hv : s.lastValue? collection name = some v)
    (hnext : Update.addChecked v 1 = some next) :
    Program.EndAlike s (increment collection name) (swap collection name (rounds + 1)) := by
  obtain ⟨d, counter, hcounter, hdecode, rfl⟩ := Store.lastValue?_eq_some_iff.1 hv
  have hread : (swap collection name (rounds + 1)).run Store.answer s =
      (attempt collection name rounds counter.value next).run Store.answer s := by
    rw [run_swap hcheck, observed_eq hcounter hdecode, hnext]
  have hupdate := Store.swap_eq_increment hs.wellFormed hv hnext
  cases hmodify : s.findAndModify collection (.byId (.string name))
      (Update.empty.andInc valueField 1) ⟨true, false⟩ with
  | mk result s' =>
    rw [hmodify] at hupdate
    cases result with
    | error e =>
      obtain rfl : s' = s := (Store.findAndModify_idles hs hmodify nofun).eq
      exact .failed (Program.run_ask_error hmodify)
        (hread.trans (Program.run_ask_error hupdate)) rfl
    | ok found =>
      obtain ⟨d', counter', rfl, hdecode', hvalue, -⟩ :=
        Store.increment_ok hs.wellFormed hv hmodify
      obtain rfl : next = counter'.value := Option.some.inj (hnext.symm.trans hvalue)
      have hadded : (increment collection name).run Store.answer s =
          (.returned counter'.value, s') := by
        have hrun : (increment collection name).run Store.answer s =
            ((Program.ofExcept (Counter.ofFound collection name (some d'))).bind fun counter =>
              .done counter.value).run Store.answer s' := Program.run_ask_ok hmodify
        rw [hrun, ofFound_eq_ok hdecode']
        rfl
      have hwritten : (swap collection name (rounds + 1)).run Store.answer s =
          (.returned counter'.value, s') := by
        have hrun : (attempt collection name rounds counter.value counter'.value).run
            Store.answer s = (if (⟨1, 1⟩ : UpdateResult).matched = 1 then .done counter'.value
              else swap collection name rounds).run Store.answer s' := Program.run_ask_ok hupdate
        rw [hread, hrun, if_pos rfl]
        rfl
      exact .returned hadded hwritten

end Admitted

/-- The strategies are interchangeable: with nobody else asking in between, an allocation ends alike
by either of them. A counter that is there has to be one that can be decoded. -/
theorem either_strategy (hs : s.Reachable) (collection name : String) (rounds rounds' : Nat)
    (hcounter : ∀ d, s.counter? collection name = some d → ∃ c, Counter.decode d = .ok c) :
    Program.EndAlike s ((⟨collection, .atomicIncrement, rounds⟩ : Allocator).next name)
      ((⟨collection, .compareAndSwap, rounds' + 1⟩ : Allocator).next name) := by
  cases hname : checkName name with
  | error e =>
    rw [next_of_error hname, next_of_error hname]
    exact .failed rfl rfl rfl
  | ok _ =>
    rw [next_of_ok hname, next_of_ok hname]
    dsimp only
    cases hcheck : s.check collection with
    | error e => exact alike_of_refused hcheck
    | ok _ =>
      cases hd : s.counter? collection name with
      | none => exact alike_of_absent hs hcheck hd
      | some d =>
        obtain ⟨c, hdecode⟩ := hcounter d hd
        have hv := Store.lastValue?_eq_some_iff.2 ⟨d, c, hd, hdecode, rfl⟩
        cases hnext : Update.addChecked c.value 1 with
        | none => exact alike_of_exhausted hs hcheck hv hnext
        | some next => exact alike_of_successor hs hcheck hv hnext

/-- A counter that has a field of its own and no note. -/
def tally (value : Int64) : Document :=
  .ofList [(idField, .string "steps"), (valueField, .ofInt64 value), ("owner", .string "batch")]

/-- A store with that counter. -/
def tallied (value : Int64) : Store :=
  (Store.inMemory.answer (.insertOne "counters" (tally value))).2

theorem reachable_tallied (value : Int64) : (tallied value).Reachable := .answer _ .inMemory

theorem either_strategy_of_tallied :
    (∃ s', ((⟨"counters", .atomicIncrement, 0⟩ : Allocator).next "steps").run Store.answer
          (tallied 41) = (.returned 42, s') ∧
        ((⟨"counters", .compareAndSwap, 1⟩ : Allocator).next "steps").run Store.answer
          (tallied 41) = (.returned 42, s')) ∧
      ∃ e e', ((⟨"counters", .atomicIncrement, 0⟩ : Allocator).next "steps").run Store.answer
          (tallied 9223372036854775807) = (.failed e, tallied 9223372036854775807) ∧
        ((⟨"counters", .compareAndSwap, 1⟩ : Allocator).next "steps").run Store.answer
          (tallied 9223372036854775807) = (.failed e', tallied 9223372036854775807) ∧
        e.kind = e'.kind := by
  constructor
  · have hvalue : (((⟨"counters", .atomicIncrement, 0⟩ : Allocator).next "steps").run Store.answer
        (tallied 41)).1 = .returned 42 := by decide +kernel
    obtain ⟨hfirst, hsecond⟩ | ⟨hfirst, -, -⟩ :=
      either_strategy (reachable_tallied 41) "counters" "steps" 0 0
        (Store.decode_of_lastValue? (v := 41) rfl)
    · rw [hfirst] at hvalue
      cases hvalue
      exact ⟨_, hfirst, hsecond⟩
    · rw [hfirst] at hvalue
      cases hvalue
  · have htop : (((⟨"counters", .atomicIncrement, 0⟩ : Allocator).next "steps").run Store.answer
        (tallied 9223372036854775807)).1 = .failed (.invalidArgument (.overflow valueField)) := by
      decide +kernel
    obtain ⟨hfirst, -⟩ | ⟨hfirst, hsecond, hkind⟩ :=
      either_strategy (reachable_tallied 9223372036854775807) "counters" "steps" 0 0
        (Store.decode_of_lastValue? (v := 9223372036854775807) rfl)
    · rw [hfirst] at htop
      cases htop
    · exact ⟨_, _, hfirst, hsecond, hkind⟩

end Sequence.Allocator

end StepLedger

import StepLedger.Proofs.Sequence.Counting

/-!
# What an allocation does

`Allocates` says of a program that, whatever else happens to the store between its requests, it
leaves the store as it is until one request advances the counter by one, and that it ends there with
the new value. A program of either strategy does so (`allocates_next`): a round of reading and
writing that is lost has changed nothing, and one that is won has found the counter as it was read.
-/

namespace StepLedger.Sequence

/-- What a request of an allocation comes to if the counter has the value `v` before it, where
`goesOn` says of an answer that the program is still to allocate. -/
inductive Asked {request : Request} (collection name : String) (s : Store) (v : Int64)
    (goesOn : request.Answer → Prop) (next : request.Answer → Program Int64) :
    Except StoreError request.Answer × Store → Prop
  | refused {e : StoreError} {s' : Store} (same : s.Alike s')
      (cause : e.IsOutage ∨ Store.isName collection = false ∨
        Update.addChecked v 1 = none) : Asked collection name s v goesOn next (.error e, s')
  | exhausted {answer : request.Answer} {s' : Store} {e : StoreError} (same : s.Alike s')
      (cause : Update.addChecked v 1 = none) (left : next answer = .fail e) :
      Asked collection name s v goesOn next (.ok answer, s')
  | looked {answer : request.Answer} {s' : Store} (same : s.Alike s') (left : goesOn answer) :
      Asked collection name s v goesOn next (.ok answer, s')
  | advanced {answer : request.Answer} {s' : Store} {n : Int64}
      (successor : Update.addChecked v 1 = some n) (change : s.Advances s' collection name n)
      (left : next answer = .done n) : Asked collection name s v goesOn next (.ok answer, s')

/-- The program is still to allocate a value. -/
def Allocates (collection name : String) : Program Int64 → Prop
  | .done _ | .fail _ => False
  | .stalled => True
  | .ask request next => ∀ (s : Store) (v : Int64), s.WellFormed →
      s.lastValue? collection name = some v →
      Asked collection name s v (fun answer => Allocates collection name (next answer)) next
        (s.answer request)

namespace Allocator

variable {collection name : String}

theorem ofFound_eq_ok {d : Document} {c : Counter} (h : Counter.decode d = .ok c) :
    Counter.ofFound collection name (some d) = .ok c := by
  rw [Counter.ofFound, h, Except.mapError_ok]

theorem ofFound_eq_ok_iff {found : Option Document} {c : Counter} :
    Counter.ofFound collection name found = .ok c ↔ ∃ d, found = some d ∧ Counter.decode d = .ok c := by
  refine ⟨fun h => ?_, fun ⟨d, hd, h⟩ => hd ▸ ofFound_eq_ok h⟩
  cases found with
  | none => cases h
  | some d =>
    cases hd : Counter.decode d with
    | error e => rw [Counter.ofFound, hd] at h; cases h
    | ok c' => rw [ofFound_eq_ok hd] at h; cases h; exact ⟨d, rfl, hd⟩

/-! ## By one request -/

theorem increment_eq : increment collection name =
    .ask (.findAndModify collection (.byId (.string name)) (Update.empty.andInc valueField 1)
      ⟨true, false⟩) fun (found : Option Document) =>
        (Program.ofExcept (Counter.ofFound collection name found)).bind fun counter =>
          .done counter.value := rfl

/-- One request that adds to the counter allocates. -/
theorem allocates_increment : Allocates collection name (increment collection name) := by
  rw [increment_eq]
  intro s v hs hv
  rw [Store.answer]
  cases h : s.findAndModify collection (.byId (.string name)) (Update.empty.andInc valueField 1)
      ⟨true, false⟩ with
  | mk result s' =>
    cases result with
    | error e =>
      obtain ⟨halike, hcause⟩ := Store.increment_error hs hv h
      exact .refused halike hcause
    | ok found =>
      obtain ⟨d, counter, rfl, hdecode, hnext, hadvances⟩ := Store.increment_ok hs hv h
      refine .advanced hnext hadvances ?_
      rw [ofFound_eq_ok hdecode]
      rfl

/-! ## By rounds of reading and writing -/

/-- The second half of a round, with the rounds after it: write the successor of what was read. -/
def attempt (collection name : String) (rounds : Nat) (value successor : Int64) :
    Program Int64 :=
  .ask (.updateFirst collection ((Filter.byId (.string name)).and valueField (.ofInt64 value))
    (Update.empty.andSet valueField (.ofInt64 successor))) fun (result : UpdateResult) =>
      if result.matched = 1 then .done successor else swap collection name rounds

/-- A round after its first half, in which the documents `found` were read. -/
def observed (collection name : String) (rounds : Nat) (found : List Document) : Program Int64 :=
  (Program.ofExcept (Counter.ofFound collection name found.head?)).bind fun counter =>
    (Program.ofExcept (successor name counter.value)).bind fun next =>
      attempt collection name rounds counter.value next

theorem swap_succ_eq (rounds : Nat) : swap collection name (rounds + 1) =
    .ask (.find collection (.byId (.string name))) (observed collection name rounds) := by
  show Program.ask _ _ = Program.ask _ _
  congr 1
  funext found
  dsimp only [Program.bind, observed]
  cases Counter.ofFound collection name (List.head? found) with
  | error e => rfl
  | ok counter =>
    cases hnext : successor name counter.value with
    | error e => simp [Program.ofExcept, Program.bind, hnext, bind]
    | ok next =>
      simp [Program.ofExcept, Program.bind, hnext, bind, attempt, Program.request, pure]
      rfl

theorem observed_eq {rounds : Nat} {found : List Document} {d : Document} {counter : Counter}
    (hhead : found.head? = some d) (hdecode : Counter.decode d = .ok counter) :
    observed collection name rounds found =
      match Update.addChecked counter.value 1 with
      | some next => attempt collection name rounds counter.value next
      | none => .fail (.invalidArgument (.exhausted name)) := by
  rw [observed, hhead, ofFound_eq_ok hdecode]
  simp only [Program.ofExcept, Program.bind, successor]
  cases Update.addChecked counter.value 1 <;> rfl

/-- What is observed may be out of date; then nothing is written and the next round begins. -/
theorem allocates_attempt {rounds : Nat} (ih : Allocates collection name (swap collection name rounds))
    {value next : Int64} (hnext : Update.addChecked value 1 = some next) :
    Allocates collection name (attempt collection name rounds value next) := by
  intro s v hs hv
  rw [Store.answer]
  cases h : s.updateFirst collection
      ((Filter.byId (.string name)).and valueField (.ofInt64 value))
      (Update.empty.andSet valueField (.ofInt64 next)) with
  | mk result s' =>
    cases result with
    | error e =>
      obtain ⟨halike, hkind | hname⟩ := Store.swap_error hs h
      · exact .refused halike (.inl hkind)
      · exact .refused halike (.inr (.inl hname))
    | ok result =>
      obtain ⟨hlost, -, halike⟩ | ⟨hwon, rfl, hadvances⟩ :=
        Store.swap_ok hs hv (Update.ne_of_addChecked_one hnext) h
      · have hleft : (if result.matched = 1 then .done next else swap collection name rounds) =
            swap collection name rounds := if_neg (by omega)
        refine .looked halike ?_
        show Allocates collection name (if result.matched = 1 then _ else _)
        rw [hleft]
        exact ih
      · exact .advanced hnext hadvances (if_pos hwon)

/-- Rounds of reading and writing allocate. -/
theorem allocates_swap (rounds : Nat) :
    Allocates collection name (swap collection name rounds) := by
  induction rounds with
  | zero => trivial
  | succ rounds ih =>
    rw [swap_succ_eq]
    intro s v hs hv
    rw [Store.answer]
    obtain ⟨e, hkind | hname, h⟩ | ⟨found, d, counter, h, hhead, hdecode, rfl⟩ :=
      Store.find_counter hv
    · rw [h]; exact .refused (Store.Alike.refl s) (.inl (.inl hkind))
    · rw [h]; exact .refused (Store.Alike.refl s) (.inr (.inl hname))
    · rw [h]
      have hleft : observed collection name rounds found = _ := observed_eq hhead hdecode
      cases hnext : Update.addChecked counter.value 1 with
      | none =>
        rw [hnext] at hleft
        exact .exhausted (Store.Alike.refl s) hnext hleft
      | some next =>
        rw [hnext] at hleft
        refine .looked (Store.Alike.refl s) ?_
        rw [hleft]
        exact allocates_attempt ih hnext

/-! ## By either strategy -/

/-- What a call for the next value of a sequence with a proper name does. -/
theorem next_of_ok {a : Allocator} (h : checkName name = .ok ()) :
    a.next name = match a.strategy with
      | .atomicIncrement => increment a.collection name
      | .compareAndSwap => swap a.collection name a.rounds := by
  rw [next, h]
  rfl

/-- A call for the next value of a sequence with a proper name allocates. -/
theorem allocates_next {a : Allocator} (h : checkName name = .ok ()) :
    Allocates a.collection name (a.next name) := by
  rw [next_of_ok h]
  cases a.strategy with
  | atomicIncrement => exact allocates_increment
  | compareAndSwap => exact allocates_swap a.rounds

/-- A call for the next value of a sequence without a proper name asks nothing. -/
theorem next_of_error {a : Allocator} {e : StoreError} (h : checkName name = .error e) :
    a.next name = .fail e := by
  rw [next, h]
  rfl

/-! ## Narrower values -/

section Narrower

variable {σ : Type} (serve : Server σ) (state : σ) (a : Allocator) (name : String)

/-- To allocate a number of 32 bits leaves behind what `next` leaves behind. -/
theorem snd_run_nextInt32 :
    ((a.nextInt32 name).run serve state).2 = ((a.next name).run serve state).2 := by
  show (Program.run serve state (Program.bind _ _)).2 = _
  rw [Program.run_bind]
  cases (a.next name).run serve state with
  | mk outcome state' =>
    cases outcome with
    | returned value => dsimp only [Program.Outcome.andThen]; split <;> rfl
    | failed e => rfl
    | stalled => rfl

/-- To allocate a text leaves behind what `next` leaves behind. -/
theorem snd_run_nextText :
    ((a.nextText name).run serve state).2 = ((a.next name).run serve state).2 := by
  show (Program.run serve state (Program.bind _ _)).2 = _
  rw [Program.run_bind]
  cases (a.next name).run serve state with
  | mk outcome state' => cases outcome <;> rfl

end Narrower

end Allocator

end StepLedger.Sequence

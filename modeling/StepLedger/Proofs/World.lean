import StepLedger.Proofs.Program
import StepLedger.Proofs.Store.Outcome

/-!
# Calls of several clients

In a `World` any number of clients call programs on one store. A call may start at any time, and any
call that is not over may ask its next request, so that a run interleaves the requests of all calls
in any order. Between requests the store may be closed and the state of its disk may change. A world
keeps its `history`, one `Moment` for each request.

What holds at the beginning and is kept by every step holds after every run (`run_induction`). A call
that is not over has asked a request whenever it was let ask (`countP_history_of_pending`).
-/

namespace StepLedger

/-- A call: what was called and what is left of it. -/
structure Call (κ α : Type) where
  what : κ
  left : Program α

/-- What one request of a call did. -/
structure Moment (κ α : Type) where
  /-- The place of the call among all calls. -/
  call : Nat
  what : κ
  before : Store
  after : Store
  /-- What was left of the call then. -/
  left : Program α

/-- What was called and what it returned, if it is over and has returned something. -/
def Call.reply? {κ α : Type} (call : Call κ α) : Option (κ × α) :=
  match call.left with
  | .done a => some (call.what, a)
  | _ => none

/-- The call of a request as it was left. -/
def Moment.callLeft {κ α : Type} (m : Moment κ α) : Call κ α := ⟨m.what, m.left⟩

/-- A store with the calls on it. -/
structure World (κ α : Type) where
  store : Store
  /-- All calls, in the order in which they started. -/
  calls : List (Call κ α)
  /-- All requests, in the order in which they were answered. -/
  history : List (Moment κ α)

/-- What may happen next. -/
inductive Move (κ : Type) where
  /-- A client calls something. -/
  | start (what : κ)
  /-- A call asks its next request. -/
  | ask (call : Nat)
  /-- The disk of the store changes on its own. -/
  | onDisk (disk : Disk)
  | close

/-- The move lets the call ask its next request. -/
def Move.asks {κ : Type} (i : Nat) : Move κ → Bool
  | .ask j => j = i
  | _ => false

/-- What is left of a program when its request has been answered. -/
def Program.resume {α : Type} {request : Request} (next : request.Answer → Program α) :
    Except StoreError request.Answer → Program α
  | .ok answer => next answer
  | .error e => .fail e

theorem Program.asks_resume {α : Type} {P : Request → Prop} {Q : α → Prop} {request : Request}
    {next : request.Answer → Program α} (h : ∀ answer, (next answer).Asks P Q)
    (result : Except StoreError request.Answer) : (resume next result).Asks P Q := by
  cases result with
  | ok answer => exact h answer
  | error e => trivial

namespace World

variable {κ α : Type}

/-- A store on which nothing has been called. -/
def ofStore (store : Store) : World κ α := ⟨store, [], []⟩

/-- Start a call. -/
def start (w : World κ α) (what : κ) (program : Program α) : World κ α :=
  { w with calls := w.calls ++ [⟨what, program⟩] }

/-- Answer a request of a call. -/
def answer (w : World κ α) (i : Nat) (what : κ) (request : Request)
    (next : request.Answer → Program α) : World κ α :=
  let (result, store) := w.store.answer request
  let left := Program.resume next result
  { store
    calls := w.calls.set i ⟨what, left⟩
    history := w.history ++ [⟨i, what, w.store, store, left⟩] }

/-- Let a call ask its next request, if it is not over. -/
def ask (w : World κ α) (i : Nat) : World κ α :=
  match w.calls[i]? with
  | some ⟨what, .ask request next⟩ => w.answer i what request next
  | _ => w

/-- Make a move, where `program` says what is called. -/
def move (program : κ → Program α) (w : World κ α) : Move κ → World κ α
  | .start what => w.start what (program what)
  | .ask i => w.ask i
  | .onDisk disk => { w with store := w.store.onDisk disk }
  | .close => { w with store := w.store.close }

/-- Make moves one after the other. -/
def run (program : κ → Program α) (w : World κ α) (moves : List (Move κ)) : World κ α :=
  moves.foldl (move program) w

/-- What calls have returned, in the order in which they did, each with what was called. -/
def replies (w : World κ α) : List (κ × α) := w.history.filterMap fun m => m.callLeft.reply?

/-- A call has returned a value. -/
def Returned (w : World κ α) (i : Nat) (a : α) : Prop :=
  ∃ what, w.calls[i]? = some ⟨what, .done a⟩

/-- A call has failed. -/
def Failed (w : World κ α) (i : Nat) (e : StoreError) : Prop :=
  ∃ what, w.calls[i]? = some ⟨what, .fail e⟩

theorem history_answer (w : World κ α) (i : Nat) (what : κ) (request : Request)
    (next : request.Answer → Program α) : (w.answer i what request next).history =
      w.history ++ [⟨i, what, w.store, (w.store.answer request).2,
        Program.resume next (w.store.answer request).1⟩] := rfl

theorem replies_answer (w : World κ α) (i : Nat) (what : κ) (request : Request)
    (next : request.Answer → Program α) : (w.answer i what request next).replies =
      w.replies ++ (Call.reply? ⟨what, Program.resume next (w.store.answer request).1⟩).toList := by
  rw [replies, history_answer, List.filterMap_append]
  rfl

theorem getElem?_calls_answer {w : World κ α} {i : Nat} {what : κ} {request : Request}
    {next : request.Answer → Program α} {call : Call κ α} (hcall : w.calls[i]? = some call)
    (j : Nat) : (w.answer i what request next).calls[j]? =
      if i = j then some ⟨what, Program.resume next (w.store.answer request).1⟩
      else w.calls[j]? := by
  simp only [answer, List.getElem?_set, (List.getElem?_eq_some_iff.1 hcall).1, if_true]

/-! ## Induction over runs -/

variable {program : κ → Program α}

/-- Every call is permitted in the world in which it starts. -/
def Permitted (program : κ → Program α) (permits : World κ α → κ → Prop) :
    World κ α → List (Move κ) → Prop
  | _, [] => True
  | w, m :: moves => (∀ what, m = .start what → permits w what) ∧
      Permitted program permits (w.move program m) moves

/-- Whether a call is permitted may not depend on the world. -/
theorem permitted_of_forall {permits : κ → Prop} {moves : List (Move κ)}
    (h : ∀ what, .start what ∈ moves → permits what) (w : World κ α) :
    Permitted program (fun _ => permits) w moves := by
  induction moves generalizing w with
  | nil => trivial
  | cons m moves ih =>
    exact ⟨fun what heq => h what (heq ▸ List.mem_cons_self),
      ih (fun what hm => h what (List.mem_cons_of_mem m hm)) _⟩

/-- What holds at the beginning holds after every run of permitted calls, if it is kept when one
starts, when a request is answered, and when the store changes without showing other collections. -/
theorem Permitted.run_induction {permits : World κ α → κ → Prop} {w : World κ α}
    {moves : List (Move κ)} (h : Permitted program permits w moves) {motive : World κ α → Prop}
    (init : motive w)
    (start : ∀ w what, motive w → permits w what → motive (w.start what (program what)))
    (answer : ∀ w i what request next, motive w → w.calls[i]? = some ⟨what, .ask request next⟩ →
      motive (w.answer i what request next))
    (rest : ∀ w store, motive w → w.store.Alike store → motive { w with store }) :
    motive (w.run program moves) := by
  induction moves generalizing w with
  | nil => exact init
  | cons m moves ih =>
    refine ih (w := w.move program m) h.2 ?_
    cases m with
    | start what => exact start w what init (h.1 what rfl)
    | onDisk disk => exact rest w _ init fun _ => rfl
    | close => exact rest w _ init fun _ => rfl
    | ask i =>
      rw [move, ask]
      split
      · next what request next hcall => exact answer w i what request next init hcall
      · exact init

/-- What holds at the beginning holds after every run, if it is kept when a call starts, when a
request is answered, and when the store changes without showing other collections. -/
theorem run_induction {motive : World κ α → Prop} {w : World κ α} (init : motive w)
    (start : ∀ w what, motive w → motive (w.start what (program what)))
    (answer : ∀ w i what request next, motive w → w.calls[i]? = some ⟨what, .ask request next⟩ →
      motive (w.answer i what request next))
    (rest : ∀ w store, motive w → w.store.Alike store → motive { w with store })
    (moves : List (Move κ)) : motive (w.run program moves) := by
  have h : Permitted program (fun _ _ => True) w moves := permitted_of_forall (fun _ _ => trivial) w
  exact h.run_induction init (fun w what h _ => start w what h) answer rest

/-- What holds at the beginning holds after every run, where a request is only ever asked of a store
that can come about. -/
theorem run_induction_of_reachable {motive : World κ α → Prop} {w : World κ α}
    (hw : w.store.Reachable) (init : motive w)
    (start : ∀ w what, motive w → motive (w.start what (program what)))
    (answer : ∀ w i what request next, w.store.Reachable → motive w →
      w.calls[i]? = some ⟨what, .ask request next⟩ → motive (w.answer i what request next))
    (rest : ∀ w store, motive w → w.store.Alike store → motive { w with store })
    (moves : List (Move κ)) : motive (w.run program moves) := by
  induction moves generalizing w with
  | nil => exact init
  | cons m moves ih =>
    suffices hmove : (w.move program m).store.Reachable ∧ motive (w.move program m) from
      ih (w := w.move program m) hmove.1 hmove.2
    cases m with
    | start what => exact ⟨hw, start w what init⟩
    | onDisk disk => exact ⟨hw.onDisk disk, rest w _ init fun _ => rfl⟩
    | close => exact ⟨hw.close, rest w _ init fun _ => rfl⟩
    | ask i =>
      rw [move, ask]
      split
      · next what request next hcall =>
        exact ⟨hw.answer request, answer w i what request next hw init hcall⟩
      · exact ⟨hw, init⟩

/-- Calls whose programs ask requests in `P` and return values in `Q` go on to do so, and what such
requests keep of the store is kept. -/
theorem run_asking {P : Request → Prop} {Q : κ → α → Prop}
    (hprogram : ∀ what, (program what).Asks P (Q what)) {motive : Store → Prop}
    (answer : ∀ s request, motive s → P request → motive (s.answer request).2)
    (rest : ∀ s s', motive s → s.Alike s' → motive s') {w : World κ α}
    (hcalls : ∀ call ∈ w.calls, call.left.Asks P (Q call.what)) (hstore : motive w.store)
    (moves : List (Move κ)) :
    (∀ call ∈ (w.run program moves).calls, call.left.Asks P (Q call.what)) ∧
      motive (w.run program moves).store := by
  refine run_induction (motive := fun w => (∀ call ∈ w.calls, call.left.Asks P (Q call.what)) ∧
    motive w.store) ⟨hcalls, hstore⟩ ?_ ?_ ?_ moves
  · rintro w what ⟨h, hstore⟩
    refine ⟨fun call hcall => ?_, hstore⟩
    rcases List.mem_append.1 hcall with hcall | hcall
    · exact h call hcall
    · rw [List.mem_singleton.1 hcall]
      exact hprogram what
  · rintro w i what request next ⟨h, hstore⟩ hi
    have hask := h _ (List.mem_of_getElem? hi)
    refine ⟨fun call hcall => ?_, answer w.store request hstore hask.1⟩
    rcases List.mem_or_eq_of_mem_set hcall with hcall | rfl
    · exact h call hcall
    · exact Program.asks_resume hask.2 _
  · rintro w store ⟨h, hstore⟩ halike
    exact ⟨h, rest w.store store hstore halike⟩

/-! ## Growth -/

/-- The history is only added to. -/
theorem history_prefix (w : World κ α) (moves : List (Move κ)) :
    w.history <+: (w.run program moves).history := by
  refine run_induction (motive := fun w' => w.history <+: w'.history) List.prefix_rfl
    (fun _ _ h => h) (fun w' _ _ _ _ h _ => ?_) (fun _ _ h _ => h) moves
  exact h.trans (List.prefix_append _ _)

/-- A call is as one of its requests left it, or as it started. -/
theorem exists_moment {s : Store} {moves : List (Move κ)} {i : Nat} {call : Call κ α}
    (h : ((ofStore s).run program moves).calls[i]? = some call) :
    (∃ m ∈ ((ofStore s).run program moves).history, m.call = i ∧ m.callLeft = call) ∨
      call.left = program call.what := by
  revert h
  refine run_induction (motive := fun w => w.calls[i]? = some call →
    (∃ m ∈ w.history, m.call = i ∧ m.callLeft = call) ∨ call.left = program call.what)
    (fun h => by cases h) (fun w what ih h => ?_) (fun w j what request next ih hcall h => ?_)
    (fun _ _ ih _ => ih) moves
  · rw [start, List.getElem?_append] at h
    split at h
    · exact ih h
    · rw [List.getElem?_singleton] at h
      split at h
      · obtain rfl := Option.some.inj h
        exact .inr rfl
      · cases h
  · rw [getElem?_calls_answer hcall] at h
    rw [history_answer]
    split at h
    · next heq =>
      exact .inl ⟨_, List.mem_append_right _ List.mem_cons_self, heq, Option.some.inj h⟩
    · obtain ⟨m, hm, hcalled⟩ | hstart := ih h
      · exact .inl ⟨m, List.mem_append_left _ hm, hcalled⟩
      · exact .inr hstart

/-- What only calls have that are over, and none from its start, as many calls have as requests have
led to it. -/
theorem countP_calls {p : Call κ α → Bool} (hstart : ∀ what, p ⟨what, program what⟩ = false)
    (hask : ∀ what request next, p ⟨what, .ask request next⟩ = false) (s : Store)
    (moves : List (Move κ)) :
    ((ofStore s).run program moves).calls.countP p =
      ((ofStore s).run program moves).history.countP fun m => p m.callLeft := by
  refine run_induction (motive := fun w => w.calls.countP p = w.history.countP fun m => p m.callLeft)
    rfl (fun w what h => ?_) (fun w i what request next h hcall => ?_) (fun _ _ h _ => h) moves
  · rw [start, List.countP_append, List.countP_singleton, hstart what, h]
    rfl
  · obtain ⟨hi, hget⟩ := List.getElem?_eq_some_iff.1 hcall
    rw [answer, List.countP_set hi, hget, hask, List.countP_append, List.countP_singleton, h]
    rfl

/-! ## Calls that are not over -/

section Pending

variable {w : World κ α} {i : Nat}

/-- A call that is let ask either does so or is over. -/
theorem ask_cases (w : World κ α) (i : Nat) :
    (∃ what request next, w.calls[i]? = some ⟨what, .ask request next⟩ ∧
      w.ask i = w.answer i what request next) ∨
    (∀ what request next, w.calls[i]? ≠ some ⟨what, .ask request next⟩) ∧ w.ask i = w := by
  rw [ask]
  split
  · next what request next hcall => exact .inl ⟨what, request, next, hcall, rfl⟩
  · next hover => exact .inr ⟨fun what request next => hover what request next, rfl⟩

/-- A call that is over stays as it is. -/
theorem calls_run_of_over {call : Call κ α} (hcall : w.calls[i]? = some call)
    (hover : ∀ request next, call.left ≠ .ask request next) (moves : List (Move κ)) :
    (w.run program moves).calls[i]? = some call := by
  refine run_induction (motive := fun w => w.calls[i]? = some call) hcall (fun w what h => ?_)
    (fun w j what request next h hj => ?_) (fun _ _ h _ => h) moves
  · rw [start, List.getElem?_append_left (List.getElem?_eq_some_iff.1 h).1, h]
  · rw [getElem?_calls_answer hj, if_neg, h]
    rintro rfl
    cases h.symm.trans hj
    exact hover request next rfl

/-- A call that is not over after some moves has asked one request for each that let it ask. -/
theorem countP_history_of_pending {moves : List (Move κ)} {what : κ} {request : Request}
    {next : request.Answer → Program α} (hi : i < w.calls.length)
    (h : (w.run program moves).calls[i]? = some ⟨what, .ask request next⟩) :
    (w.run program moves).history.countP (fun m => m.call = i) =
      w.history.countP (fun m => m.call = i) + moves.countP (Move.asks i) := by
  induction moves generalizing w with
  | nil => rfl
  | cons move moves ih =>
    have hrun : w.run program (move :: moves) = (w.move program move).run program moves := rfl
    rw [hrun] at h ⊢
    suffices hmove : i < (w.move program move).calls.length ∧
        (w.move program move).history.countP (fun m => m.call = i) =
          w.history.countP (fun m => m.call = i) + (if move.asks i then 1 else 0) by
      rw [ih hmove.1 h, hmove.2, List.countP_cons]
      omega
    cases move with
    | start what => exact ⟨by simp only [World.move, start, List.length_append]; omega, rfl⟩
    | onDisk | close => exact ⟨hi, rfl⟩
    | ask j =>
      have hmove : w.move program (.ask j) = w.ask j := rfl
      rw [hmove] at h ⊢
      obtain ⟨what', request', next', -, hask⟩ | ⟨hover, hask⟩ := w.ask_cases j
      · rw [hask, history_answer, List.countP_append, List.countP_singleton]
        exact ⟨by simpa [answer] using hi, by simp [Move.asks]⟩
      · -- the call itself is not over now, because it would be over in the end
        have hne : j ≠ i := by
          rintro rfl
          have hnow := List.getElem?_eq_getElem hi
          have hstays : (w.run program moves).calls[j]? = some w.calls[j] :=
            calls_run_of_over hnow (fun request next heq =>
              hover w.calls[j].what request next (hnow.trans (by rw [← heq]))) moves
          rw [hask, hstays] at h
          exact hover what request next ((List.getElem?_eq_getElem hi).trans h)
        rw [hask]
        exact ⟨hi, by simp [Move.asks, hne]⟩

end Pending

end World

end StepLedger

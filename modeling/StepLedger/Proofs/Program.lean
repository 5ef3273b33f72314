import StepLedger.Proofs.Except
import StepLedger.Program

/-!
# What programs ask and return

`Program.Asks P Q` says of a program that every request of it satisfies `P` and every value it
returns `Q`, whatever the answers are. Such programs compose (`asks_bind`), and what the requests in
`P` keep is kept by running them (`Asks.run`).
-/

namespace StepLedger.Program

variable {α β : Type} {P : Request → Prop}

/-- Every request satisfies `P` and every value returned `Q`. -/
def Asks (P : Request → Prop) (Q : α → Prop) : Program α → Prop
  | .done a => Q a
  | .fail _ | .stalled => True
  | .ask request next => P request ∧ ∀ answer, (next answer).Asks P Q

theorem asks_bind {Q : α → Prop} {R : β → Prop} {program : Program α} {f : α → Program β}
    (h : program.Asks P Q) (hf : ∀ a, Q a → (f a).Asks P R) : (program.bind f).Asks P R := by
  induction program with
  | done a => exact hf a h
  | fail e => trivial
  | stalled => trivial
  | ask request next ih => exact ⟨h.1, fun answer => ih answer (h.2 answer)⟩

theorem asks_mono {P' : Request → Prop} {Q R : α → Prop} {program : Program α}
    (h : program.Asks P Q) (hP : ∀ request, P request → P' request) (hQ : ∀ a, Q a → R a) :
    program.Asks P' R := by
  induction program with
  | done a => exact hQ a h
  | fail e => trivial
  | stalled => trivial
  | ask request next ih => exact ⟨hP request h.1, fun answer => ih answer (h.2 answer)⟩

/-- Nothing is said of a program in general. -/
theorem asks_true (program : Program α) : program.Asks (fun _ => True) fun _ => True := by
  induction program with
  | done | fail | stalled => trivial
  | ask request next ih => exact ⟨trivial, ih⟩

theorem asks_ofExcept {Q : α → Prop} {result : Except StoreError α}
    (h : ∀ a, result = .ok a → Q a) : (ofExcept result).Asks P Q := by
  cases result with
  | error e => trivial
  | ok a => exact h a rfl

theorem asks_request {request : Request} {Q : request.Answer → Prop} (h : P request)
    (hQ : ∀ answer, Q answer) : (Program.request request).Asks P Q := ⟨h, hQ⟩

theorem asks_findOne {collection : String} {f : Filter} {Q : Option Document → Prop}
    (h : P (.find collection f)) (hQ : ∀ found, Q found) : (findOne collection f).Asks P Q :=
  ⟨h, fun _ => hQ _⟩

/-- What never returns a value is not gone on with. -/
theorem Asks.bind_eq_self {program : Program α} (h : program.Asks P fun _ => False)
    (f : α → Program α) : program.bind f = program := by
  induction program with
  | done a => exact absurd h id
  | fail e => rfl
  | stalled => rfl
  | ask request next ih => simp only [Program.bind, ih _ (h.2 _)]

/-- Two programs begin alike and one goes on like the other and then with more. -/
theorem bind_eq_bind_bind {γ : Type} (program : Program α) {f : α → Program γ} {g : α → Program β}
    {more : β → Program γ} (h : ∀ a, f a = (g a).bind more) :
    program.bind f = (program.bind g).bind more := by
  rw [bind_assoc]
  exact congrArg program.bind (funext h)

/-! ## Results that need no store -/

theorem ofExcept_bind_error {result : Except StoreError α} {f : α → Program β} {e : StoreError}
    (h : result = .error e) : (ofExcept result).bind f = .fail e := by rw [h]; rfl

theorem ofExcept_bind_ok {result : Except StoreError α} {f : α → Program β} {a : α}
    (h : result = .ok a) : (ofExcept result).bind f = f a := by rw [h]; rfl

/-! ## Running -/

variable {σ : Type} {serve : Server σ} {state state' : σ}

/-- What the requests of a program keep is kept by the program. -/
theorem Asks.run {motive : σ → Prop} {Q : α → Prop}
    (hserve : ∀ state request, motive state → P request → motive (serve state request).2)
    {program : Program α} (h : program.Asks P Q) (hstate : motive state) :
    motive (program.run serve state).2 := by
  induction program generalizing state with
  | done a => exact hstate
  | fail e => exact hstate
  | stalled => exact hstate
  | ask request next ih =>
    have hnext := hserve state request hstate h.1
    rw [Program.run]
    cases hanswer : serve state request with
    | mk result state' =>
      rw [hanswer] at hnext
      cases result with
      | ok answer => exact ih answer (h.2 answer) hnext
      | error e => exact hnext

/-- A program that is run returns nothing else than it says. -/
theorem Asks.returned {Q : α → Prop} {program : Program α} (h : program.Asks P Q) {a : α}
    (hrun : program.run serve state = (.returned a, state')) : Q a := by
  induction program generalizing state with
  | done b => cases hrun; exact h
  | fail e => cases hrun
  | stalled => cases hrun
  | ask request next ih =>
    rw [Program.run] at hrun
    split at hrun
    · next answer _ _ => exact ih answer (h.2 answer) hrun
    · cases hrun

theorem run_ask_ok {request : Request} {next : request.Answer → Program α} {answer : request.Answer}
    (h : serve state request = (.ok answer, state')) :
    (ask request next).run serve state = (next answer).run serve state' := by
  rw [Program.run, h]

theorem run_ask_error {request : Request} {next : request.Answer → Program α} {e : StoreError}
    (h : serve state request = (.error e, state')) :
    (ask request next).run serve state = (.failed e, state') := by
  rw [Program.run, h]

/-- A program that begins with a request goes on with the answer to it, or ends with its error. -/
theorem run_of_eq_ask {program : Program α} {request : Request} {next : request.Answer → Program α}
    {answer : request.Answer} (hprogram : program = ask request next)
    (h : serve state request = (.ok answer, state')) :
    program.run serve state = (next answer).run serve state' := by
  rw [hprogram, run_ask_ok h]

theorem failed_of_eq_ask {program : Program α} {request : Request}
    {next : request.Answer → Program α} {e : StoreError} (hprogram : program = ask request next)
    (h : serve state request = (.error e, state')) :
    program.run serve state = (.failed e, state') := by
  rw [hprogram, run_ask_error h]

theorem run_request {request : Request} {answer : request.Answer}
    (h : serve state request = (.ok answer, state')) :
    (Program.request request).run serve state = (.returned answer, state') := run_ask_ok h

theorem request_returned {request : Request} {answer : request.Answer}
    (h : (Program.request request).run serve state = (.returned answer, state')) :
    serve state request = (.ok answer, state') := by
  rw [Program.request, Program.run] at h
  split at h
  · next hanswer => cases h; exact hanswer
  · cases h

/-- One program after another returns a value if both do. -/
theorem bind_returned {program : Program α} {f : α → Program β} {b : β}
    (h : (program.bind f).run serve state = (.returned b, state')) :
    ∃ a between, program.run serve state = (.returned a, between) ∧
      (f a).run serve between = (.returned b, state') := by
  rw [run_bind] at h
  cases hfirst : program.run serve state with
  | mk outcome between =>
    rw [hfirst] at h
    cases outcome with
    | returned a => exact ⟨a, between, rfl, h⟩
    | failed e => cases h
    | stalled => cases h

theorem ofExcept_bind_returned {result : Except StoreError α} {f : α → Program β} {b : β}
    (h : ((ofExcept result).bind f).run serve state = (.returned b, state')) :
    ∃ a, result = .ok a ∧ (f a).run serve state = (.returned b, state') := by
  cases result with
  | error e => cases h
  | ok a => exact ⟨a, rfl, h⟩

/-- What ends without a request leaves the state as it is. -/
theorem state_of_ofExcept_done {result : Except StoreError α} {f : α → β} {outcome : Outcome β}
    (h : ((ofExcept result).bind fun a => .done (f a)).run serve state = (outcome, state')) :
    state' = state := by
  cases result <;> cases h <;> rfl

/-- One program after another fails if the first does or the second. -/
theorem bind_failed {program : Program α} {f : α → Program β} {e : StoreError}
    (h : (program.bind f).run serve state = (.failed e, state')) :
    program.run serve state = (.failed e, state') ∨
      ∃ a between, program.run serve state = (.returned a, between) ∧
        (f a).run serve between = (.failed e, state') := by
  rw [run_bind] at h
  cases hfirst : program.run serve state with
  | mk outcome between =>
    rw [hfirst] at h
    cases outcome with
    | returned a => exact .inr ⟨a, between, rfl, h⟩
    | failed e' =>
      cases h
      exact .inl rfl
    | stalled => cases h

theorem request_failed {request : Request} {e : StoreError}
    (h : (Program.request request).run serve state = (.failed e, state')) :
    serve state request = (.error e, state') := by
  rw [Program.request, Program.run] at h
  split at h
  · cases h
  · next hanswer =>
    cases h
    exact hanswer

end StepLedger.Program

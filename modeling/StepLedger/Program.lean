import StepLedger.Request

/-!
# Programs

A `Program` is what a client does: it asks requests one after the other, each depending on the
answers so far, and ends with a value or an error. The first request that fails ends it. A program
that repeats its requests until it wins a race has a limit on the rounds and is `stalled` beyond it.

`Program.run` carries a program out against a server, one program after the other as `run_bind` says.
Programs of several clients can be interleaved request by request, because `Program.ask` holds what
is left to do.
-/

namespace StepLedger

/-- A computation that asks requests of a store. -/
inductive Program (α : Type) where
  | done (value : α)
  | fail (error : StoreError)
  /-- The rounds allowed did not suffice. -/
  | stalled
  | ask (request : Request) (next : request.Answer → Program α)

namespace Program

/-- One program and then another that depends on its value. -/
protected def bind {α β : Type} : Program α → (α → Program β) → Program β
  | .done a, f => f a
  | .fail e, _ => .fail e
  | .stalled, _ => .stalled
  | .ask request next, f => .ask request fun answer => (next answer).bind f

instance : Monad Program where
  pure := .done
  bind := .bind

/-- Ask one request. -/
def request (request : Request) : Program request.Answer := .ask request .done

/-- A result that needs no store. -/
def ofExcept {α : Type} : Except StoreError α → Program α
  | .ok a => .done a
  | .error e => .fail e

/-- The first matching document. -/
def findOne (collection : String) (f : Filter) : Program (Option Document) :=
  .ask (.find collection f) fun (found : List Document) => .done found.head?

/-- How a program ends. -/
inductive Outcome (α : Type) where
  | returned (value : α)
  | failed (error : StoreError)
  | stalled
deriving DecidableEq, Repr

/-- Change the value of an outcome. -/
def Outcome.map {α β : Type} (f : α → β) : Outcome α → Outcome β
  | .returned a => .returned (f a)
  | .failed e => .failed e
  | .stalled => .stalled

/-- Carry a program out, with nobody else asking in between. -/
def run {σ α : Type} (serve : Server σ) (state : σ) : Program α → Outcome α × σ
  | .done a => (.returned a, state)
  | .fail e => (.failed e, state)
  | .stalled => (.stalled, state)
  | .ask request next =>
    match serve state request with
    | (.ok answer, state) => (next answer).run serve state
    | (.error e, state) => (.failed e, state)

/-! ## Running programs one after the other -/

/-- Go on with a program after an outcome. -/
def Outcome.andThen {σ α β : Type} (serve : Server σ) (f : α → Program β) :
    Outcome α × σ → Outcome β × σ
  | (.returned a, state) => (f a).run serve state
  | (.failed e, state) => (.failed e, state)
  | (.stalled, state) => (.stalled, state)

theorem run_bind {σ α β : Type} (serve : Server σ) (state : σ) (program : Program α)
    (f : α → Program β) :
    (program.bind f).run serve state = Outcome.andThen serve f (program.run serve state) := by
  induction program generalizing state with
  | done a => rfl
  | fail e => rfl
  | stalled => rfl
  | ask request next ih =>
    simp only [Program.bind, run]
    cases serve state request with
    | mk result state =>
      cases result with
      | ok answer => exact ih answer state
      | error e => rfl

theorem bind_assoc {α β γ : Type} (program : Program α) (f : α → Program β) (g : β → Program γ) :
    (program.bind f).bind g = program.bind fun a => (f a).bind g := by
  induction program with
  | done a => rfl
  | fail e => rfl
  | stalled => rfl
  | ask request next ih => simp only [Program.bind, ih]

end Program

end StepLedger

import StepLedger.Error

/-!
# Strategies of allocation

A `Strategy` is the way in which the next value of a sequence is obtained. It has a name and a short
name; only the former is written.
-/

namespace StepLedger.Sequence

/-- How the next value of a sequence is obtained. -/
inductive Strategy where
  /-- By one request that adds to the counter and answers with it. -/
  | atomicIncrement
  /-- By reading the counter and then writing on the condition that it is still the same. -/
  | compareAndSwap
deriving DecidableEq, Repr

namespace Strategy

/-- The name under which a strategy is written. -/
def name : Strategy → String
  | .atomicIncrement => "atomic-increment"
  | .compareAndSwap => "compare-and-swap"

/-- The strategy of a name or a short name. -/
def ofName (name : String) : Except ConfigError Strategy :=
  if name = "atomic-increment" ∨ name = "inc" then .ok .atomicIncrement
  else if name = "compare-and-swap" ∨ name = "cas" then .ok .compareAndSwap
  else .error (.strategy name)

theorem ofName_name (strategy : Strategy) : ofName strategy.name = .ok strategy := by
  cases strategy <;> simp [ofName, Strategy.name]

end Strategy

end StepLedger.Sequence

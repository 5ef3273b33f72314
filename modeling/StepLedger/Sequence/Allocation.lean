import StepLedger.Sequence.Counter
import StepLedger.Sequence.Strategy

/-!
# Allocation

An `Allocator` hands out the values of the sequences in one collection, each value once
(`Allocator.next`). With `Strategy.atomicIncrement` this takes one request. With
`Strategy.compareAndSwap` it takes rounds of two requests, and a round is lost when somebody else
changes the counter between them.
-/

namespace StepLedger.Sequence

/-- What hands out the values of sequences. -/
structure Allocator where
  /-- The collection of the counters. -/
  collection : String
  strategy : Strategy
  /-- How many rounds of reading and writing are tried; one suffices if nobody else writes. -/
  rounds : Nat
deriving DecidableEq, Repr

namespace Allocator

/-- The next value by one request. -/
def increment (collection name : String) : Program Int64 := do
  let found ← Program.request (.findAndModify collection (.byId (.string name))
    (Update.empty.andInc valueField 1) { returnNew := true, upsert := false })
  let counter ← Program.ofExcept (Counter.ofFound collection name found)
  return counter.value

/-- The value after one that was read. -/
def successor (name : String) (value : Int64) : Except StoreError Int64 :=
  match Update.addChecked value 1 with
  | some next => .ok next
  | none => .error (.invalidArgument (.exhausted name))

/-- Read the counter and advance it if it is still the same. The answer is the value after the one
that was read, and whether the counter was advanced. -/
def round (collection name : String) : Program (Int64 × Bool) := do
  let found ← Program.findOne collection (.byId (.string name))
  let counter ← Program.ofExcept (Counter.ofFound collection name found)
  let next ← Program.ofExcept (successor name counter.value)
  let unchanged := (Filter.byId (.string name)).and valueField (.ofInt64 counter.value)
  let result ← Program.request
    (.updateFirst collection unchanged (Update.empty.andSet valueField (.ofInt64 next)))
  return (next, UpdateResult.matched result = 1)

/-- The next value by rounds of reading and writing. -/
def swap (collection name : String) : Nat → Program Int64
  | 0 => .stalled
  | rounds + 1 => do
    let (next, won) ← round collection name
    if won then return next else swap collection name rounds

/-- The next value of a sequence. -/
def next (a : Allocator) (name : String) : Program Int64 := do
  Program.ofExcept (checkName name)
  match a.strategy with
  | .atomicIncrement => increment a.collection name
  | .compareAndSwap => swap a.collection name a.rounds

/-- The next value of a sequence as a number of 32 bits; a value that is too wide is used up. -/
def nextInt32 (a : Allocator) (name : String) : Program Int32 := do
  let value ← a.next name
  if -2147483648 ≤ value.toInt ∧ value.toInt < 2147483648 then return .ofInt value.toInt
  else .fail (.invalidArgument (.tooWide name value.toInt))

/-- The next value of a sequence as text. -/
def nextText (a : Allocator) (name : String) : Program String := do
  let value ← a.next name
  return String.ofList (Decimal.ofInt value.toInt)

end Allocator

end StepLedger.Sequence

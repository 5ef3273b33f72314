import StepLedger.Document.Filter

/-!
# Updates

An `Update` sets fields, adds to integer fields, and has fields that only count for a document it
creates. It never touches the primary key. `Update.apply` changes a document as a whole or not at
all; `Update.create` builds the document that an upsert puts in.
-/

namespace StepLedger

/-- Changes to the fields of one document. -/
structure Update where
  /-- Fields to set. -/
  set : Document
  /-- Amounts to add to integer fields, in order; a missing field counts as zero. -/
  inc : List (String × Int64)
  /-- Fields to set in a document that the update creates. -/
  setOnInsert : Document

namespace Update

/-- The update that changes nothing. -/
def empty : Update := ⟨.empty, [], .empty⟩

/-- Set one field as well. -/
def andSet (u : Update) (field : String) (value : Json) : Update :=
  { u with set := u.set.set field value }

/-- Add to one field as well. -/
def andInc (u : Update) (field : String) (amount : Int64) : Update :=
  { u with inc := u.inc ++ [(field, amount)] }

/-- Set one field of a created document as well. -/
def andSetOnInsert (u : Update) (field : String) (value : Json) : Update :=
  { u with setOnInsert := u.setOnInsert.set field value }

/-- Whether the update says nothing at all. -/
def isEmpty (u : Update) : Bool :=
  u.set.fields.isEmpty && u.inc.isEmpty && u.setOnInsert.fields.isEmpty

/-- Whether the update names the primary key. -/
def touchesId (u : Update) : Bool :=
  (u.set.get? idField).isSome || (u.setOnInsert.get? idField).isSome ||
    u.inc.any fun (field, _) => field = idField

/-- The sum of two words, if it is a word. -/
def addChecked (a b : Int64) : Option Int64 :=
  let sum := a.toInt + b.toInt
  if -9223372036854775808 ≤ sum ∧ sum < 9223372036854775808 then some (.ofInt sum) else none

/-- The integer that a field holds; zero if it is missing or `null`. -/
def current (d : Document) (field : String) : Except StoreError Int64 :=
  match d.get? field with
  | none | some .null => .ok 0
  | some value =>
    match value with
    | .number n =>
      match n.toInt64? with
      | some n => .ok n
      | none => .error (.invalidArgument (.notInteger field value.text))
    | value => .error (.invalidArgument (.notInteger field value.text))

/-- Add an amount to a field. -/
def increment (d : Document) (field : String) (amount : Int64) : Except StoreError Document := do
  let n ← current d field
  match addChecked n amount with
  | some sum => return d.set field (.ofInt64 sum)
  | none => throw (.invalidArgument (.overflow field))

/-- The document after the update. -/
def apply (u : Update) (d : Document) : Except StoreError Document := do
  if u.touchesId then throw (.invalidArgument .keyUpdate)
  u.inc.foldlM (fun d (field, amount) => increment d field amount) (d.overlay u.set)

/-- The document that an upsert creates: the clauses of the filter, then the fields for a created
document, then the rest of the update. -/
def create (u : Update) (f : Filter) : Except StoreError Document := do
  if u.touchesId then throw (.invalidArgument .keyUpdate)
  u.apply ((Document.ofList f.clauses).overlay u.setOnInsert)

end Update

end StepLedger

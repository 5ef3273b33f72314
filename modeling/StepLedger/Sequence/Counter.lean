import StepLedger.Program
import StepLedger.Text.Blank

/-!
# Counters

The `Counter` of a sequence is a document with the name of the sequence as its key, the last value
handed out, and a note. `Counter.seed` creates it unless it is there, `Counter.read` only looks.
-/

namespace StepLedger

namespace Sequence

/-- The field with the last value handed out. -/
def valueField : String := "value"

/-- The field with the note. -/
def noteField : String := "note"

/-- The note of a counter that is created without another. -/
def defaultNote : String :=
  "Incremented atomically together with the fetch of this document; never read-then-write"

/-- The state of a sequence. -/
structure Counter where
  /-- The name of the sequence. -/
  id : String
  /-- The last value handed out. -/
  value : Int64
  note : String
deriving DecidableEq, Repr

/-- Refuse the name of a sequence that has nothing but white space. -/
def checkName (name : String) : Except StoreError Unit :=
  if Text.allBlank name then .error (.invalidArgument .emptySequenceName) else .ok ()

/-- The error of a sequence that was never seeded. -/
def missing (collection name : String) : StoreError := .notFound (.counter name collection)

namespace Counter

/-- Decode a counter. The fields are looked at by ascending name; only the note may be missing. -/
def decode (d : Document) : Except DecodeError Counter := do
  let id ← d.field? idField Json.Value.toText
  let note ← d.field? noteField Json.Value.toText
  let value ← d.field? valueField Json.Value.toInt64
  return {
    id := ← DecodeError.require idField id
    value := ← DecodeError.require valueField value
    note := note.getD "" }

/-- The counter in a document that a request found. -/
def ofFound (collection name : String) : Option Document → Except StoreError Counter
  | some d => (decode d).mapError .serialization
  | none => .error (missing collection name)

/-- Create the counter of a sequence, unless it is there, and answer with the counter as it is. -/
def seed (collection name : String) (initial : Int64) (note : String) : Program Counter := do
  Program.ofExcept (checkName name)
  let fields := (Update.empty.andSetOnInsert valueField (.ofInt64 initial)).andSetOnInsert
    noteField (.string note)
  let found ← Program.request
    (.findAndModify collection (.byId (.string name)) fields { returnNew := true, upsert := true })
  Program.ofExcept (ofFound collection name found)

/-- The counter of a sequence. -/
def read (collection name : String) : Program Counter := do
  Program.ofExcept (checkName name)
  let found ← Program.findOne collection (.byId (.string name))
  Program.ofExcept (ofFound collection name found)

end Counter

end Sequence

end StepLedger

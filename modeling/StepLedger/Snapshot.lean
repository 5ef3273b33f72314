import StepLedger.Collection
import StepLedger.Json.Tree

/-!
# Snapshots

A `Snapshot` is the documents of a collection at one time, and its text is how they are kept in a
file. `Snapshot.render` writes the four fields in a fixed order. `Snapshot.ofText?` reads them in
any order, each of them once, or as an array in the order of writing; fields of other names are
passed over, whatever they hold.
-/

namespace StepLedger

/-- The documents of a collection at one time. -/
structure Snapshot where
  /-- The version of the format. -/
  version : UInt32
  collection : String
  writtenAt : Calendar.Instant
  documents : List Document

namespace Snapshot

/-- The version of the format described here. -/
def currentVersion : UInt32 := 1

/-- The snapshot of a collection. -/
def ofCollection (now : Calendar.Instant) (c : Collection) : Snapshot :=
  ⟨currentVersion, c.name, now, c.documents⟩

/-! ## Writing -/

/-- The snapshot as a value, its fields in the order of writing. -/
def toValue (s : Snapshot) : Json.Value :=
  .object [
    ("version", .number (.ofUInt32 s.version)),
    ("collection", .string s.collection),
    ("written_at", .string s.writtenAt.text),
    ("documents", .array (s.documents.map fun d => .object d.fields))]

/-- The text of a snapshot. -/
def render (s : Snapshot) : List Char := s.toValue.render

/-- The text of a snapshot as a string. -/
def text (s : Snapshot) : String := String.ofList s.render

/-! ## Reading -/

/-- A document within an array within the snapshot. -/
def document? (tree : Json.Tree) : Option Document :=
  (tree.json? (Json.Tree.maxNesting - 2)).bind fun json => (Document.ofJson json).toOption

/-- The documents of an array. -/
def documents? : Json.Tree → Option (List Document)
  | .array items => items.mapM document?
  | _ => none

/-- A part of the snapshot other than the documents. -/
def part? {α : Type} (decode : Json.Value → Except DecodeError α) (tree : Json.Tree) : Option α :=
  (tree.value? (Json.Tree.maxNesting - 1)).bind fun value => (decode value).toOption

/-- The snapshot of its four parts. -/
def ofParts? (version collection writtenAt documents : Json.Tree) : Option Snapshot := do
  return {
    version := ← part? Json.Value.toUInt32 version
    collection := ← part? Json.Value.toText collection
    writtenAt := ← part? Json.Value.toInstant writtenAt
    documents := ← documents? documents }

/-- The field with a name, if there is exactly one. -/
def only? (name : String) (fields : List (Option String × Json.Tree)) : Option Json.Tree :=
  match fields.filter fun field => field.1 = some name with
  | [(_, tree)] => some tree
  | _ => none

/-- The snapshot that a tree describes. -/
def ofTree? : Json.Tree → Option Snapshot
  | .object fields =>
    if fields.all fun field => field.1.isSome then do
      ofParts? (← only? "version" fields) (← only? "collection" fields)
        (← only? "written_at" fields) (← only? "documents" fields)
    else none
  | .array [version, collection, writtenAt, documents] =>
    ofParts? version collection writtenAt documents
  | _ => none

/-- The snapshot that a text describes. -/
def ofText? (text : String) : Option Snapshot :=
  (Json.Tree.ofText? text.toList).bind ofTree?

end Snapshot

end StepLedger

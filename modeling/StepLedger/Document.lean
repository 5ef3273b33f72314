import StepLedger.Json.Decode

/-!
# Documents

A `Document` is a JSON object, its fields in order. Its primary key is the field `id`; two keys are
one key if they have the same text (`Document.key?`), so that `7` and `"7"` stay distinct.
-/

namespace StepLedger

/-- The field that holds the primary key of a document. -/
def idField : String := "id"

/-- A JSON object. -/
structure Document where
  fields : List (String × Json.Value)
  ordered : (Json.Value.object fields).Ordered

namespace Document

@[ext] theorem ext {d e : Document} (h : d.fields = e.fields) : d = e := by
  cases d; cases e; cases h; rfl

/-- The document without fields. -/
def empty : Document := ⟨[], Entries.Ascending.nil, trivial⟩

/-- The value of a field. -/
def get? (d : Document) (name : String) : Option Json.Value := Entries.find? name d.fields

/-- Set a field. -/
def set (d : Document) (name : String) (value : Json) : Document :=
  ⟨Entries.insert name value.value d.fields, d.ordered.insert name value.ordered⟩

/-- The document with the given fields; of two fields with one name the later counts. -/
def ofList (fields : List (String × Json)) : Document :=
  fields.foldl (fun d field => d.set field.1 field.2) empty

/-- The fields with some of the names. -/
def restrict (d : Document) (names : List String) : Document :=
  ⟨d.fields.filter fun field => names.contains field.1, d.ordered.filter _⟩

/-- The fields with their values. -/
def toList (d : Document) : List (String × Json) :=
  d.fields.attach.map fun ⟨field, h⟩ =>
    (field.1, ⟨field.2, Json.Value.orderedFields_iff.1 d.ordered.2 field h⟩)

/-- Set every field of another document, in place of what stands under its name. -/
def overlay (d : Document) (other : Document) : Document :=
  other.toList.foldl (fun d field => d.set field.1 field.2) d

/-- Decode a field, if it is there. -/
def field? {α : Type} (d : Document) (name : String)
    (decode : Json.Value → Except DecodeError α) : Except DecodeError (Option α) :=
  Json.Value.field? d.fields name decode

/-- The document as a JSON value. -/
def toJson (d : Document) : Json := ⟨.object d.fields, d.ordered⟩

/-- The document that a JSON value is. -/
def ofJson (json : Json) : Except DecodeError Document :=
  match json with
  | ⟨.object fields, ordered⟩ => .ok ⟨fields, ordered⟩
  | ⟨value, _⟩ => .error (.notDocument value.text)

/-- Equality of documents: that of their values. -/
def same (d e : Document) : Bool := Json.Value.same (.object d.fields) (.object e.fields)

/-- The text of a primary key. -/
def keyText (value : Json.Value) : String := value.text

/-- The text of the primary key, if there is one. -/
def key? (d : Document) : Option String := (d.get? idField).map keyText

end Document

end StepLedger

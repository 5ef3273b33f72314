import StepLedger.Entries
import StepLedger.Json.Number

/-!
# JSON values

`Json.Value` is the tree of a JSON value. The trees that the library holds list the fields of every
object by strictly ascending name (`Value.Ordered`), which leaves no choice in how an object is
represented; `Json` packages a tree with that fact, and equality of `Json` is equality of trees.

`Value.same` is equality of JSON values: equality of trees up to the sign of a zero.
-/

namespace StepLedger.Json

/-- The tree of a JSON value. -/
inductive Value where
  | null
  | bool (value : Bool)
  | number (value : Number)
  | string (text : String)
  | array (items : List Value)
  | object (fields : List (String × Value))
deriving Repr, Inhabited

namespace Value

/-! ## Order of fields -/

mutual

/-- Every object in the tree lists its fields by strictly ascending name. -/
def Ordered : Value → Prop
  | .array items => OrderedItems items
  | .object fields => Entries.Ascending fields ∧ OrderedFields fields
  | _ => True

/-- Every item of an array is ordered. -/
def OrderedItems : List Value → Prop
  | [] => True
  | item :: items => item.Ordered ∧ OrderedItems items

/-- Every field of an object has an ordered value. -/
def OrderedFields : List (String × Value) → Prop
  | [] => True
  | (_, value) :: fields => value.Ordered ∧ OrderedFields fields

end

theorem orderedItems_iff {items : List Value} :
    OrderedItems items ↔ ∀ item ∈ items, item.Ordered := by
  induction items with
  | nil => simp [OrderedItems]
  | cons item items ih => simp [OrderedItems, ih]

theorem orderedFields_iff {fields : List (String × Value)} :
    OrderedFields fields ↔ ∀ field ∈ fields, field.2.Ordered := by
  induction fields with
  | nil => simp [OrderedFields]
  | cons field fields ih => obtain ⟨name, value⟩ := field; simp [OrderedFields, ih]

theorem OrderedFields.insert {fields : List (String × Value)} (h : OrderedFields fields)
    (name : String) {value : Value} (hv : value.Ordered) :
    OrderedFields (Entries.insert name value fields) := by
  rw [orderedFields_iff] at h ⊢
  intro field hm
  rcases Entries.mem_insert hm with rfl | hm
  · exact hv
  · exact h field hm

/-- An object stays ordered when a field is put into it. -/
theorem Ordered.insert {fields : List (String × Value)} (h : (object fields).Ordered)
    (name : String) {value : Value} (hv : value.Ordered) :
    (object (Entries.insert name value fields)).Ordered :=
  ⟨Entries.Ascending.insert h.1 name value, OrderedFields.insert h.2 name hv⟩

/-- An object stays ordered when only some of its fields are kept. -/
theorem Ordered.filter {fields : List (String × Value)} (h : (object fields).Ordered)
    (keep : String × Value → Bool) : (object (fields.filter keep)).Ordered :=
  ⟨Entries.Ascending.filter h.1 keep, orderedFields_iff.2 fun field hm =>
    orderedFields_iff.1 h.2 field (List.mem_filter.1 hm).1⟩

/-! ## Equality of values -/

mutual

/-- Equality of JSON values: `0.0` and `-0.0` are equal, `1` and `1.0` are not. -/
def same : Value → Value → Bool
  | .null, .null => true
  | .bool a, .bool b => a = b
  | .number m, .number n => m.same n
  | .string s, .string t => s = t
  | .array items, .array others => sameItems items others
  | .object fields, .object others => sameFields fields others
  | _, _ => false

def sameItems : List Value → List Value → Bool
  | [], [] => true
  | item :: items, other :: others => same item other && sameItems items others
  | _, _ => false

def sameFields : List (String × Value) → List (String × Value) → Bool
  | [], [] => true
  | (name, value) :: fields, (name', value') :: others =>
    (name = name') && same value value' && sameFields fields others
  | _, _ => false

end

/-- Whether this is `null`. -/
def isNull : Value → Bool
  | .null => true
  | _ => false

end Value

end StepLedger.Json

namespace StepLedger

/-- A JSON value with the fields of its objects in order. -/
structure Json where
  value : Json.Value
  ordered : value.Ordered

namespace Json

@[ext] theorem ext {a b : Json} (h : a.value = b.value) : a = b := by
  cases a; cases b; cases h; rfl

def null : Json := ⟨.null, trivial⟩

def bool (b : Bool) : Json := ⟨.bool b, trivial⟩

def number (n : Number) : Json := ⟨.number n, trivial⟩

def string (s : String) : Json := ⟨.string s, trivial⟩

def ofInt64 (n : Int64) : Json := number (.ofInt64 n)

def ofInt32 (n : Int32) : Json := number (.ofInt32 n)

def ofUInt32 (n : UInt32) : Json := number (.ofUInt32 n)

end Json

end StepLedger

import StepLedger.Json.Token
import StepLedger.Json.Value

/-!
# JSON syntax trees

`Tree.ofTokens?` reads a sequence of tokens as one JSON text. A tree keeps all that was written:
fields in the order of the text, names that occur twice, numbers and strings that denote nothing.
The containers begun and not yet ended are kept in a list of `Frame`s, so that reading goes through
the tokens once, whatever the nesting.

`Tree.value?` is the value that a tree denotes. Of two fields with one name the later counts. No
value has numbers or strings that denote nothing, and none is nested deeper than `maxNesting`.
-/

namespace StepLedger.Json

/-- What a JSON text says, as written. -/
inductive Tree where
  | null
  | bool (value : Bool)
  | number (value : Option Number)
  | string (text : Option String)
  | array (items : List Tree)
  | object (fields : List (Option String × Tree))
deriving Repr

namespace Tree

/-! ## From tokens -/

/-- A container begun: its items or fields so far, last one first, and in an object the name of the
field that is being read. -/
inductive Frame where
  | items (done : List Tree)
  | fields (done : List (Option String × Tree)) (name : Option String)

mutual

/-- Read one value, then go on in the containers around it. -/
def read (stack : List Frame) : List Token → Option Tree
  | .null :: tokens => resume stack .null tokens
  | .bool b :: tokens => resume stack (.bool b) tokens
  | .number n :: tokens => resume stack (.number n) tokens
  | .string s :: tokens => resume stack (.string s) tokens
  | .openArray :: .closeArray :: tokens => resume stack (.array []) tokens
  | .openArray :: tokens => read (.items [] :: stack) tokens
  | .openObject :: .closeObject :: tokens => resume stack (.object []) tokens
  | .openObject :: .string name :: .colon :: tokens => read (.fields [] name :: stack) tokens
  | _ => none

/-- Put a value that has been read where it belongs and go on. -/
def resume (stack : List Frame) (tree : Tree) : List Token → Option Tree
  | [] => if stack.isEmpty then some tree else none
  | .comma :: .string name :: .colon :: tokens =>
    match stack with
    | .fields done field :: stack => read (.fields ((field, tree) :: done) name :: stack) tokens
    | _ => none
  | .comma :: tokens =>
    match stack with
    | .items done :: stack => read (.items (tree :: done) :: stack) tokens
    | _ => none
  | .closeArray :: tokens =>
    match stack with
    | .items done :: stack => resume stack (.array (tree :: done).reverse) tokens
    | _ => none
  | .closeObject :: tokens =>
    match stack with
    | .fields done field :: stack =>
      resume stack (.object ((field, tree) :: done).reverse) tokens
    | _ => none
  | _ => none

end

/-- The tree of a sequence of tokens. -/
def ofTokens? (tokens : List Token) : Option Tree := read [] tokens

/-- The tree of a text. -/
def ofText? (text : List Char) : Option Tree := (Token.ofText? text).bind ofTokens?

/-! ## The value denoted -/

/-- How deep the containers of a value may be nested. -/
def maxNesting : Nat := 127

mutual

/-- The value of a tree with at most `depth` levels of containers. -/
def value? (depth : Nat) : Tree → Option Value
  | .null => some .null
  | .bool b => some (.bool b)
  | .number n => n.map .number
  | .string s => s.map .string
  | .array items => if depth = 0 then none else (items? (depth - 1) items).map .array
  | .object fields => if depth = 0 then none else (fields? (depth - 1) [] fields).map .object

/-- The values of the items of an array. -/
def items? (depth : Nat) : List Tree → Option (List Value)
  | [] => some []
  | item :: items =>
    match item.value? depth, items? depth items with
    | some value, some values => some (value :: values)
    | _, _ => none

/-- Put the fields of an object, in the order written, into those before them. -/
def fields? (depth : Nat) (done : List (String × Value)) :
    List (Option String × Tree) → Option (List (String × Value))
  | [] => some done
  | (none, _) :: _ => none
  | (some name, tree) :: fields =>
    match tree.value? depth with
    | some value => fields? depth (Entries.insert name value done) fields
    | none => none

end

mutual

/-- The value of a tree has its fields in order. -/
theorem ordered_of_value? {depth : Nat} : ∀ {tree : Tree} {value : Value},
    tree.value? depth = some value → value.Ordered
  | .null, _, h => by cases h; trivial
  | .bool _, _, h => by cases h; trivial
  | .number n, _, h => by
    cases n with
    | none => cases h
    | some n => cases h; trivial
  | .string s, _, h => by
    cases s with
    | none => cases h
    | some s => cases h; trivial
  | .array items, _, h => by
    rw [value?] at h
    split at h
    · cases h
    · obtain ⟨values, hv, rfl⟩ := Option.map_eq_some_iff.1 h
      exact orderedItems_of_items? hv
  | .object fields, _, h => by
    rw [value?] at h
    split at h
    · cases h
    · obtain ⟨values, hv, rfl⟩ := Option.map_eq_some_iff.1 h
      exact ordered_of_fields? ⟨Entries.Ascending.nil, trivial⟩ hv

theorem orderedItems_of_items? {depth : Nat} : ∀ {items : List Tree} {values : List Value},
    items? depth items = some values → Value.OrderedItems values
  | [], _, h => by cases h; trivial
  | item :: items, _, h => by
    rw [items?] at h
    split at h
    · next hv hvs => cases h; exact ⟨ordered_of_value? hv, orderedItems_of_items? hvs⟩
    · cases h

theorem ordered_of_fields? {depth : Nat} : ∀ {fields : List (Option String × Tree)}
    {done values : List (String × Value)}, (Value.object done).Ordered →
    fields? depth done fields = some values → (Value.object values).Ordered
  | [], _, _, ho, h => by cases h; exact ho
  | (none, _) :: _, _, _, _, h => by cases h
  | (some name, tree) :: fields, _, _, ho, h => by
    rw [fields?] at h
    split at h
    · next hv => exact ordered_of_fields? (Value.Ordered.insert ho name (ordered_of_value? hv)) h
    · cases h

end

/-- The JSON value of a tree with at most `depth` levels of containers. -/
def json? (depth : Nat) (tree : Tree) : Option Json :=
  match h : tree.value? depth with
  | some value => some ⟨value, ordered_of_value? h⟩
  | none => none

end Tree

end StepLedger.Json

namespace StepLedger.Json

/-- The JSON value that a text denotes. -/
def ofText? (text : List Char) : Option Json :=
  (Tree.ofText? text).bind (Tree.json? Tree.maxNesting)

end StepLedger.Json

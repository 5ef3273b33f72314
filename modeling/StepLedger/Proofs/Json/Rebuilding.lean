import StepLedger.Json.Tree
import StepLedger.Proofs.Json.Splitting

/-!
# Reading what was written

`Value.tree` is a value as it is written, and reading its tokens gives that tree (`read_tokens`). If
its fields are in order and it is not nested too deep, the tree denotes the value (`value?_tree`). So
every value without binary64 numbers is read back as it was (`ofText?_render`).
-/

namespace StepLedger

/-- To put an entry behind those whose names come before. -/
theorem Entries.insert_of_forall_lt {α : Type} {name : String} {entries : List (String × α)}
    (h : ∀ entry ∈ entries, entry.1 < name) (value : α) :
    insert name value entries = entries ++ [(name, value)] := by
  induction entries with
  | nil => rfl
  | cons entry entries ih =>
    obtain ⟨key, old⟩ := entry
    have hlt : key < name := h (key, old) List.mem_cons_self
    have hne : name ≠ key := fun heq => String.lt_irrefl name (heq ▸ hlt)
    rw [insert, if_neg (String.lt_asymm hlt), if_neg hne,
      ih fun entry hentry => h entry (List.mem_cons_of_mem _ hentry)]
    rfl

namespace Json

namespace Value

mutual

/-- The tree of a value: all that its text says. -/
def tree : Value → Tree
  | .null => .null
  | .bool b => .bool b
  | .number n => .number (some n)
  | .string s => .string (some s)
  | .array items => .array (itemTrees items)
  | .object fields => .object (fieldTrees fields)

/-- The trees of the items of an array. -/
def itemTrees : List Value → List Tree
  | [] => []
  | item :: items => item.tree :: itemTrees items

/-- The trees of the fields of an object. -/
def fieldTrees : List (String × Value) → List (Option String × Tree)
  | [] => []
  | (name, value) :: fields => (some name, value.tree) :: fieldTrees fields

end

mutual

/-- The containers of the value are nested in at most `depth` levels. -/
def Fits (depth : Nat) : Value → Prop
  | .array items => 0 < depth ∧ FitItems (depth - 1) items
  | .object fields => 0 < depth ∧ FitFields (depth - 1) fields
  | _ => True

/-- All items fit. -/
def FitItems (depth : Nat) : List Value → Prop
  | [] => True
  | item :: items => item.Fits depth ∧ FitItems depth items

/-- The values of all fields fit. -/
def FitFields (depth : Nat) : List (String × Value) → Prop
  | [] => True
  | (_, value) :: fields => value.Fits depth ∧ FitFields depth fields

end

theorem fitFields_iff {depth : Nat} {fields : List (String × Value)} :
    FitFields depth fields ↔ ∀ field ∈ fields, field.2.Fits depth := by
  induction fields with
  | nil => simp [FitFields]
  | cons field fields ih => obtain ⟨name, value⟩ := field; simp [FitFields, ih]

end Value

open Value

namespace Tree

/-! ## From tokens to trees -/

/-- A value is no end of an array, and if it begins with a text it is that text. -/
theorem tokens_eq_cons (value : Value) : ∃ token rest, value.tokens = token :: rest ∧
    token ≠ .closeArray ∧ ∀ s, token = .string s → rest = [] := by
  cases value with
  | null => exact ⟨_, _, rfl, nofun, nofun⟩
  | bool b => exact ⟨_, _, rfl, nofun, nofun⟩
  | number n => exact ⟨_, _, rfl, nofun, nofun⟩
  | string s => exact ⟨_, _, rfl, nofun, fun _ _ => rfl⟩
  | array items => cases items <;> exact ⟨_, _, rfl, nofun, nofun⟩
  | object fields => cases fields <;> exact ⟨_, _, rfl, nofun, nofun⟩

/-- An array that is not empty is read from its first item on. -/
theorem read_openArray (stack : List Frame) (item : Value) (rest : List Token) :
    read stack (.openArray :: (item.tokens ++ rest)) =
      read (.items [] :: stack) (item.tokens ++ rest) := by
  obtain ⟨token, more, heq, hclose, -⟩ := tokens_eq_cons item
  rw [heq, List.cons_append, read]
  exact fun _ h => hclose (List.cons.inj h).1

/-- After a comma in an array the next item is read. -/
theorem resume_comma (done : List Tree) (stack : List Frame) (tree : Tree) (item : Value)
    {rest : List Token} (hrest : ∀ tokens, rest ≠ .colon :: tokens) :
    resume (.items done :: stack) tree (.comma :: (item.tokens ++ rest)) =
      read (.items (tree :: done) :: stack) (item.tokens ++ rest) := by
  obtain ⟨token, more, heq, -, hstring⟩ := tokens_eq_cons item
  rw [heq, List.cons_append, resume]
  intro s tokens h
  obtain ⟨htoken, htail⟩ := List.cons.inj h
  rw [hstring s htoken] at htail
  exact hrest tokens htail

theorem itemTokens_ne_colon (items : List Value) (rest tokens : List Token) :
    itemTokens items ++ rest ≠ .colon :: tokens := by
  cases items <;> simp [itemTokens]

mutual

/-- The tokens of a value are read as its tree. -/
theorem read_tokens : ∀ (value : Value) (stack : List Frame) (rest : List Token),
    read stack (value.tokens ++ rest) = resume stack value.tree rest
  | .null, _, _ | .bool _, _, _ | .number _, _, _ | .string _, _, _ => by
    simp [tokens, read, tree]
  | .array [], _, _ | .object [], _, _ => by
    simp [tokens, read, tree, itemTrees, fieldTrees]
  | .array (item :: items), stack, rest => by
    simp only [tokens, List.cons_append, List.append_assoc]
    rw [read_openArray, read_tokens item, resume_itemTokens items]
    rfl
  | .object ((name, value) :: fields), stack, rest => by
    simp only [tokens, List.cons_append, List.append_assoc]
    rw [read, read_tokens value, resume_fieldTokens fields]
    rfl

theorem resume_itemTokens : ∀ (items : List Value) (done : List Tree) (stack : List Frame)
    (tree : Tree) (rest : List Token),
    resume (.items done :: stack) tree (itemTokens items ++ rest) =
      resume stack (.array (done.reverse ++ tree :: itemTrees items)) rest
  | [], done, stack, tree, rest => by
    rw [itemTokens, List.singleton_append, resume, List.reverse_cons]
    rfl
  | item :: items, done, stack, tree, rest => by
    simp only [itemTokens, List.cons_append, List.append_assoc]
    rw [resume_comma _ _ _ _ (itemTokens_ne_colon items rest), read_tokens item,
      resume_itemTokens items, List.reverse_cons, List.append_assoc]
    rfl

theorem resume_fieldTokens : ∀ (fields : List (String × Value))
    (done : List (Option String × Tree)) (name : Option String) (stack : List Frame) (tree : Tree)
    (rest : List Token),
    resume (.fields done name :: stack) tree (fieldTokens fields ++ rest) =
      resume stack (.object (done.reverse ++ (name, tree) :: fieldTrees fields)) rest
  | [], done, name, stack, tree, rest => by
    rw [fieldTokens, List.singleton_append, resume, List.reverse_cons]
    rfl
  | (next, value) :: fields, done, name, stack, tree, rest => by
    simp only [fieldTokens, List.cons_append, List.append_assoc]
    rw [resume, read_tokens value, resume_fieldTokens fields, List.reverse_cons,
      List.append_assoc]
    rfl

end

/-- The text of a value without binary64 numbers is read as its tree. -/
theorem ofText?_render {value : Value} (h : value.Whole) :
    Tree.ofText? value.render = some value.tree := by
  have hread := read_tokens value [] []
  rw [List.append_nil, resume] at hread
  rw [Tree.ofText?, h.ofText?_render, Option.bind_some, ofTokens?, hread]
  rfl

/-! ## From trees to values -/

mutual

/-- The tree of a value denotes it. -/
theorem value?_tree : ∀ {value : Value} {depth : Nat}, value.Ordered → value.Fits depth →
    value.tree.value? depth = some value
  | .null, _, _, _ | .bool _, _, _, _ | .number _, _, _, _ | .string _, _, _, _ => by
    simp [tree, value?]
  | .array items, depth, hordered, hfits => by
    rw [Value.Ordered] at hordered
    rw [Fits] at hfits
    rw [tree, value?, if_neg (Nat.pos_iff_ne_zero.1 hfits.1),
      items?_itemTrees (orderedItems_iff.1 hordered) hfits.2]
    rfl
  | .object fields, depth, hordered, hfits => by
    rw [Value.Ordered] at hordered
    rw [Fits] at hfits
    rw [tree, value?, if_neg (Nat.pos_iff_ne_zero.1 hfits.1),
      fields?_fieldTrees (List.nil_append fields ▸ hordered.1) hordered.2 hfits.2]
    rfl

theorem items?_itemTrees : ∀ {items : List Value} {depth : Nat}, (∀ item ∈ items, item.Ordered) →
    FitItems depth items → items? depth (itemTrees items) = some items
  | [], _, _, _ => rfl
  | item :: items, depth, hordered, hfits => by
    rw [List.forall_mem_cons] at hordered
    rw [FitItems] at hfits
    rw [itemTrees, items?, value?_tree hordered.1 hfits.1,
      items?_itemTrees hordered.2 hfits.2]

theorem fields?_fieldTrees : ∀ {fields done : List (String × Value)} {depth : Nat},
    Entries.Ascending (done ++ fields) → OrderedFields fields → FitFields depth fields →
    fields? depth done (fieldTrees fields) = some (done ++ fields)
  | [], done, _, _, _, _ => by rw [fieldTrees, fields?, List.append_nil]
  | (name, value) :: fields, done, depth, hascending, hordered, hfits => by
    rw [OrderedFields] at hordered
    rw [FitFields] at hfits
    have hlast : Entries.insert name value done = done ++ [(name, value)] :=
      Entries.insert_of_forall_lt (fun entry hentry =>
        (List.pairwise_append.1 hascending).2.2 entry hentry _ List.mem_cons_self) value
    rw [List.append_cons] at hascending ⊢
    rw [fieldTrees, fields?, value?_tree hordered.1 hfits.1]
    show fields? depth (Entries.insert name value done) (fieldTrees fields) = _
    rw [hlast, fields?_fieldTrees hascending hordered.2 hfits.2]

end

mutual

/-- A value whose tree denotes something is not nested too deep. -/
theorem fits_of_value? : ∀ {value denoted : Value} {depth : Nat},
    value.tree.value? depth = some denoted → value.Fits depth
  | .null, _, _, _ | .bool _, _, _, _ | .number _, _, _, _ | .string _, _, _, _ => trivial
  | .array items, _, depth, h => by
    rw [tree, value?] at h
    split at h
    · cases h
    · next hdepth =>
      obtain ⟨_, hitems, -⟩ := Option.map_eq_some_iff.1 h
      exact ⟨Nat.pos_of_ne_zero hdepth, fitItems_of_items? hitems⟩
  | .object fields, _, depth, h => by
    rw [tree, value?] at h
    split at h
    · cases h
    · next hdepth =>
      obtain ⟨_, hfields, -⟩ := Option.map_eq_some_iff.1 h
      exact ⟨Nat.pos_of_ne_zero hdepth, fitFields_of_fields? hfields⟩

theorem fitItems_of_items? : ∀ {items denoted : List Value} {depth : Nat},
    items? depth (itemTrees items) = some denoted → FitItems depth items
  | [], _, _, _ => trivial
  | item :: items, _, depth, h => by
    rw [itemTrees, items?] at h
    split at h
    · next hitem hitems => exact ⟨fits_of_value? hitem, fitItems_of_items? hitems⟩
    · cases h

theorem fitFields_of_fields? : ∀ {fields done denoted : List (String × Value)} {depth : Nat},
    fields? depth done (fieldTrees fields) = some denoted → FitFields depth fields
  | [], _, _, _, _ => trivial
  | (name, value) :: fields, _, _, depth, h => by
    rw [fieldTrees, fields?] at h
    split at h
    · next hvalue => exact ⟨fits_of_value? hvalue, fitFields_of_fields? h⟩
    · cases h

end

/-- A tree denotes one JSON value. -/
theorem json?_tree {json : Json} {depth : Nat} (h : json.value.Fits depth) :
    json.value.tree.json? depth = some json := by
  have hvalue := value?_tree json.ordered h
  rw [json?]
  split
  · next value heq =>
    rw [hvalue] at heq
    exact congrArg some (Json.ext (Option.some.inj heq).symm)
  · next heq =>
    rw [hvalue] at heq
    cases heq

end Tree

/-- A JSON value without binary64 numbers that is not nested too deep is read back as it was
written. -/
theorem ofText?_render {json : Json} (hwhole : json.value.Whole)
    (hfits : json.value.Fits Tree.maxNesting) : ofText? json.value.render = some json := by
  rw [ofText?, Tree.ofText?_render hwhole, Option.bind_some, Tree.json?_tree hfits]

end Json

end StepLedger

import StepLedger.Proofs.Json.Rebuilding

/-!
# Reading what was written over several lines

White space between tokens says nothing. So the text of a value with each item and each field on a line
of its own is split into the same tokens as the text without white space (`Whole.split_renderIndented`),
and it is read back as the same value (`Json.ofText?_renderIndented`).
-/

namespace StepLedger.Json

namespace Token

variable {tokens : List Token}

/-! ## White space -/

theorem splitFrom_spaces (n : Nat) (text : List Char) :
    splitFrom .between tokens (List.replicate n ' ' ++ text) = splitFrom .between tokens text := by
  induction n with
  | zero => rfl
  | succ n ih =>
    rw [List.replicate_succ, List.cons_append]
    exact ih

/-- A new line says nothing, however far it is indented. -/
theorem splitFrom_newLine (level : Nat) (text : List Char) :
    splitFrom .between tokens (Value.newLine level ++ text) = splitFrom .between tokens text := by
  rw [Value.newLine, List.cons_append]
  exact splitFrom_spaces (2 * level) text

/-- The name of a field, with the colon and the space behind it. -/
theorem splitFrom_name (name : String) (text : List Char) :
    splitFrom .between tokens (renderString name ++ ':' :: ' ' :: text) =
      splitFrom .between (.colon :: .string (some name) :: tokens) text := by
  rw [splitFrom_renderString]
  rfl

end Token

namespace Value

open Token

/-! ## Values over several lines -/

/-- A number that stands before the text has come to its end. -/
def EndsNumber (text : List Char) : Prop := ∀ c ∈ text.head?, isNumberChar c = false

theorem endsNumber_newLine (level : Nat) (text : List Char) : EndsNumber (newLine level ++ text) := by
  simp [EndsNumber, newLine, isNumberChar]

theorem endsNumber_indentItems (level : Nat) (items : List Value) (text : List Char) :
    EndsNumber (indentItems level items ++ text) := by
  cases items <;> simp [EndsNumber, indentItems, newLine, isNumberChar]

theorem endsNumber_indentFields (level : Nat) (fields : List (String × Value)) (text : List Char) :
    EndsNumber (indentFields level fields ++ text) := by
  cases fields <;> simp [EndsNumber, indentFields, newLine, isNumberChar]

mutual

/-- The text of a value over several lines is split into its tokens. -/
theorem Whole.split_renderIndented : ∀ {level : Nat} {value : Value} {done : List Token}
    {text : List Char}, value.Whole → EndsNumber text →
    splitFrom .between done (value.renderIndented level ++ text) =
      splitFrom .between (value.tokens.reverse ++ done) text
  | _, .null, _, _, _, _ => rfl
  | _, .bool true, _, _, _, _ => rfl
  | _, .bool false, _, _, _, _ => rfl
  | _, .number (.int n _ _), _, _, _, htext => splitFrom_ofInt htext
  | _, .string s, _, text, _, _ => splitFrom_renderString s text
  | _, .array [], _, _, _, _ => rfl
  | level, .array (item :: items), done, text, h, _ => by
    rw [Whole, WholeItems] at h
    simp only [renderIndented, tokens, List.cons_append, List.append_assoc, List.reverse_cons,
      List.reverse_append]
    show splitFrom .between (.openArray :: done) _ = _
    rw [splitFrom_newLine, Whole.split_renderIndented h.1 (endsNumber_indentItems level items text),
      split_indentItems h.2]
    rfl
  | _, .object [], _, _, _, _ => rfl
  | level, .object ((name, value) :: fields), done, text, h, _ => by
    rw [Whole, WholeFields] at h
    simp only [renderIndented, tokens, List.cons_append, List.append_assoc, List.reverse_cons,
      List.reverse_append]
    show splitFrom .between (.openObject :: done) _ = _
    rw [splitFrom_newLine, splitFrom_name,
      Whole.split_renderIndented h.1 (endsNumber_indentFields level fields text),
      split_indentFields h.2]
    rfl

theorem split_indentItems : ∀ {level : Nat} {items : List Value} {done : List Token}
    {text : List Char}, WholeItems items →
    splitFrom .between done (indentItems level items ++ text) =
      splitFrom .between ((itemTokens items).reverse ++ done) text
  | level, [], done, text, _ => by
    rw [indentItems, List.append_assoc, splitFrom_newLine]
    rfl
  | level, item :: items, done, text, h => by
    rw [WholeItems] at h
    simp only [indentItems, itemTokens, List.cons_append, List.append_assoc, List.reverse_cons,
      List.reverse_append]
    show splitFrom .between (.comma :: done) _ = _
    rw [splitFrom_newLine, Whole.split_renderIndented h.1 (endsNumber_indentItems level items text),
      split_indentItems h.2]
    rfl

theorem split_indentFields : ∀ {level : Nat} {fields : List (String × Value)} {done : List Token}
    {text : List Char}, WholeFields fields →
    splitFrom .between done (indentFields level fields ++ text) =
      splitFrom .between ((fieldTokens fields).reverse ++ done) text
  | level, [], done, text, _ => by
    rw [indentFields, List.append_assoc, splitFrom_newLine]
    rfl
  | level, (name, value) :: fields, done, text, h => by
    rw [WholeFields] at h
    simp only [indentFields, fieldTokens, List.cons_append, List.append_assoc, List.reverse_cons,
      List.reverse_append]
    show splitFrom .between (.comma :: done) _ = _
    rw [splitFrom_newLine, splitFrom_name,
      Whole.split_renderIndented h.1 (endsNumber_indentFields level fields text),
      split_indentFields h.2]
    rfl

end

/-- A text over several lines, with a new line at its end, is split into the tokens of its value. -/
theorem Whole.ofText?_renderIndented {value : Value} (h : value.Whole) (level : Nat) :
    Token.ofText? (value.renderIndented level ++ newLine 0) = some value.tokens := by
  have hend : EndsNumber (newLine 0) := List.append_nil (newLine 0) ▸ endsNumber_newLine 0 []
  have hblank : splitFrom .between (value.tokens.reverse ++ []) (newLine 0) = _ :=
    List.append_nil (newLine 0) ▸ splitFrom_newLine 0 []
  rw [Token.ofText?, h.split_renderIndented hend, hblank]
  simp [splitFrom, Mode.finish]

end Value

/-- The text of a value over several lines is read back as that value. -/
theorem ofText?_renderIndented {json : Json} (hwhole : json.value.Whole)
    (hfits : json.value.Fits Tree.maxNesting) (level : Nat) :
    ofText? (json.value.renderIndented level ++ Value.newLine 0) = some json := by
  have hread := Tree.read_tokens json.value [] []
  rw [List.append_nil, Tree.resume] at hread
  have htree : Tree.ofText? (json.value.renderIndented level ++ Value.newLine 0) =
      some json.value.tree := by
    rw [Tree.ofText?, hwhole.ofText?_renderIndented, Option.bind_some, Tree.ofTokens?, hread]
    rfl
  rw [ofText?, htree, Option.bind_some, Tree.json?_tree hfits]

end StepLedger.Json

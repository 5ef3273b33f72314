import Mathlib.Data.List.Forall2
import StepLedger.Json.Value

/-!
# Equality of JSON values

`Value.same` is equality up to the sign of a zero. A text or a whole number equals nothing but
itself (`same_string_iff`, `same_int_iff`), and so does every value without a zero of binary64 in it
(`eq_of_same`). Equality is an equivalence (`same_refl`, `same_symm`, `same_trans`). Objects that are
equal have equal fields (`find?_of_sameFields`, and `sameFields_of_forall₂` for the converse) and stay
equal when equal values are put into them (`sameFields_insert`).
-/

namespace StepLedger.Json

theorem Number.same_refl (n : Number) : n.same n = true := by
  cases n <;> simp [Number.same, Binary64.same]

theorem Number.same_comm (m n : Number) : m.same n = n.same m := by
  cases m <;> cases n <;> simp [Number.same, Binary64.same, Bool.and_comm, eq_comm]

theorem Number.same_trans {m n k : Number} (h : m.same n = true) (h' : n.same k = true) :
    m.same k = true := by
  cases m <;> cases n <;> cases k <;> simp_all only [Number.same, Binary64.same, Bool.or_eq_true,
    Bool.and_eq_true, decide_eq_true_eq, Bool.false_eq_true]
  grind

namespace Value

/-! ## Scalars -/

theorem same_string_iff {value : Value} {s : String} :
    value.same (.string s) = true ↔ value = .string s := by
  cases value <;> simp [same]

theorem same_int_iff {value : Value} {n : Int} {lower upper} :
    value.same (.number (.int n lower upper)) = true ↔ value = .number (.int n lower upper) := by
  cases value with
  | number m => cases m <;> simp [same, Number.same]
  | _ => simp [same]

/-! ## Reflexivity -/

mutual

/-- Every value equals itself. -/
theorem same_refl : ∀ value : Value, value.same value = true
  | .null | .bool _ | .string _ => by simp [same]
  | .number n => by simp [same, Number.same_refl]
  | .array items => by rw [same]; exact sameItems_refl items
  | .object fields => by rw [same]; exact sameFields_refl fields

theorem sameItems_refl : ∀ items : List Value, sameItems items items = true
  | [] => rfl
  | item :: items => by rw [sameItems, same_refl item, sameItems_refl items]; rfl

theorem sameFields_refl : ∀ fields : List (String × Value), sameFields fields fields = true
  | [] => rfl
  | (name, value) :: fields => by
    rw [sameFields, same_refl value, sameFields_refl fields]; simp

end

/-! ## Symmetry and transitivity -/

mutual

theorem same_comm : ∀ value other : Value, value.same other = other.same value
  | .null, other => by cases other <;> rfl
  | .bool _, other => by cases other <;> simp [same, eq_comm]
  | .number m, other => by cases other <;> simp [same, Number.same_comm m]
  | .string _, other => by cases other <;> simp [same, eq_comm]
  | .array items, other => by cases other <;> simp [same, sameItems_comm items]
  | .object fields, other => by cases other <;> simp [same, sameFields_comm fields]

theorem sameItems_comm : ∀ items others : List Value, sameItems items others = sameItems others items
  | [], others => by cases others <;> rfl
  | item :: items, [] => rfl
  | item :: items, other :: others => by
    rw [sameItems, sameItems, same_comm item, sameItems_comm items]

theorem sameFields_comm : ∀ fields others : List (String × Value),
    sameFields fields others = sameFields others fields
  | [], others => by cases others <;> rfl
  | (_, _) :: _, [] => rfl
  | (name, value) :: fields, (name', other) :: others => by
    rw [sameFields, sameFields, same_comm value, sameFields_comm fields]
    simp [eq_comm]

end

theorem same_symm {value other : Value} (h : value.same other = true) :
    other.same value = true := same_comm value other ▸ h

mutual

theorem same_trans : ∀ {a b c : Value}, a.same b = true → b.same c = true → a.same c = true
  | .null, b, c, h, h' => by cases b <;> cases c <;> simp_all [same]
  | .bool _, b, c, h, h' => by cases b <;> cases c <;> simp_all [same]
  | .number m, b, c, h, h' => by
    cases b <;> cases c <;> simp only [same, Bool.false_eq_true] at h h' ⊢
    exact Number.same_trans h h'
  | .string _, b, c, h, h' => by cases b <;> cases c <;> simp_all [same]
  | .array items, b, c, h, h' => by
    cases b <;> cases c <;> simp only [same, Bool.false_eq_true] at h h' ⊢
    exact sameItems_trans h h'
  | .object fields, b, c, h, h' => by
    cases b <;> cases c <;> simp only [same, Bool.false_eq_true] at h h' ⊢
    exact sameFields_trans h h'

theorem sameItems_trans : ∀ {a b c : List Value},
    sameItems a b = true → sameItems b c = true → sameItems a c = true
  | [], b, c, h, h' => by cases b <;> cases c <;> simp_all [sameItems]
  | item :: items, b, c, h, h' => by
    cases b <;> cases c <;> simp only [sameItems, Bool.and_eq_true, Bool.false_eq_true] at h h' ⊢
    exact ⟨same_trans h.1 h'.1, sameItems_trans h.2 h'.2⟩

theorem sameFields_trans : ∀ {a b c : List (String × Value)},
    sameFields a b = true → sameFields b c = true → sameFields a c = true
  | [], b, c, h, h' => by cases b <;> cases c <;> simp_all [sameFields]
  | (name, value) :: fields, b, c, h, h' => by
    cases b <;> cases c <;>
      simp only [sameFields, Bool.and_eq_true, decide_eq_true_eq, Bool.false_eq_true] at h h' ⊢
    exact ⟨⟨h.1.1.trans h'.1.1, same_trans h.1.2 h'.1.2⟩, sameFields_trans h.2 h'.2⟩

end

/-! ## Values without zeros -/

mutual

/-- No number in the value is a zero of binary64. -/
def zeroless : Value → Bool
  | .number (.float x) => !x.isZero
  | .array items => zerolessItems items
  | .object fields => zerolessFields fields
  | _ => true

def zerolessItems : List Value → Bool
  | [] => true
  | item :: items => item.zeroless && zerolessItems items

def zerolessFields : List (String × Value) → Bool
  | [] => true
  | (_, value) :: fields => value.zeroless && zerolessFields fields

end

mutual

/-- Only a zero can equal a number that it is not. -/
theorem eq_of_same : ∀ {value other : Value}, other.zeroless = true → value.same other = true →
    value = other
  | .null, other, _, h => by cases other <;> simp_all [same]
  | .bool _, other, _, h => by cases other <;> simp_all [same]
  | .number m, other, hz, h => by
    cases other with
    | number n =>
      cases m <;> cases n <;> simp_all [same, Number.same, Binary64.same, zeroless]
    | _ => simp [same] at h
  | .string _, other, _, h => by cases other <;> simp_all [same]
  | .array items, other, hz, h => by
    cases other with
    | array others => rw [eq_of_sameItems hz h]
    | _ => simp [same] at h
  | .object fields, other, hz, h => by
    cases other with
    | object others => rw [eq_of_sameFields hz h]
    | _ => simp [same] at h

theorem eq_of_sameItems : ∀ {items others : List Value}, zerolessItems others = true →
    sameItems items others = true → items = others
  | [], others, _, h => by cases others <;> simp_all [sameItems]
  | _ :: _, [], _, h => by simp [sameItems] at h
  | item :: items, other :: others, hz, h => by
    simp only [sameItems, zerolessItems, Bool.and_eq_true] at hz h
    rw [eq_of_same hz.1 h.1, eq_of_sameItems hz.2 h.2]

theorem eq_of_sameFields : ∀ {fields others : List (String × Value)}, zerolessFields others = true →
    sameFields fields others = true → fields = others
  | [], others, _, h => by cases others <;> simp_all [sameFields]
  | _ :: _, [], _, h => by simp [sameFields] at h
  | (name, value) :: fields, (name', other) :: others, hz, h => by
    simp only [sameFields, zerolessFields, Bool.and_eq_true, decide_eq_true_eq] at hz h
    rw [h.1.1, eq_of_same hz.1 h.1.2, eq_of_sameFields hz.2 h.2]

end

/-! ## Fields -/

/-- Objects that are equal have the same names, with equal values. -/
theorem find?_of_sameFields {name : String} : ∀ {fields others : List (String × Value)},
    sameFields fields others = true →
    Entries.find? name fields = none ∧ Entries.find? name others = none ∨
      ∃ value other, Entries.find? name fields = some value ∧
        Entries.find? name others = some other ∧ value.same other = true
  | [], [], _ => .inl ⟨rfl, rfl⟩
  | [], _ :: _, h => by simp [sameFields] at h
  | (_, _) :: _, [], h => by simp [sameFields] at h
  | (key, value) :: fields, (key', other) :: others, h => by
    simp only [sameFields, Bool.and_eq_true, decide_eq_true_eq] at h
    obtain ⟨⟨rfl, hv⟩, hrest⟩ := h
    by_cases hk : key = name
    · exact .inr ⟨value, other, by simp [Entries.find?, hk], by simp [Entries.find?, hk], hv⟩
    · simpa [Entries.find?, hk] using find?_of_sameFields hrest

/-- Objects with the same names one by one, and equal values, are equal. -/
theorem sameFields_of_forall₂ {fields others : List (String × Value)}
    (h : List.Forall₂ (fun field other => field.1 = other.1 ∧ field.2.same other.2 = true)
      fields others) : sameFields fields others = true := by
  induction h with
  | nil => rfl
  | cons heq _ ih => simp [sameFields, heq.1, heq.2, ih]

/-- Objects that are equal stay so when equal values are put into them under one name. -/
theorem sameFields_insert {name : String} {value other : Value} (hv : value.same other = true) :
    ∀ {fields others : List (String × Value)}, sameFields fields others = true →
      sameFields (Entries.insert name value fields) (Entries.insert name other others) = true
  | [], [], _ => by simp [Entries.insert, sameFields, hv]
  | [], _ :: _, h => by simp [sameFields] at h
  | (_, _) :: _, [], h => by simp [sameFields] at h
  | (key, kept) :: fields, (key', kept') :: others, h => by
    simp only [sameFields, Bool.and_eq_true, decide_eq_true_eq] at h
    obtain ⟨⟨rfl, hkept⟩, hrest⟩ := h
    rw [Entries.insert, Entries.insert]
    split
    · simp [sameFields, hv, hkept, hrest]
    · split
      · simp [sameFields, hv, hrest]
      · simp [sameFields, hkept, sameFields_insert hv hrest]

end Value

end StepLedger.Json

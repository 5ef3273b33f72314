import StepLedger.Proofs.Json.Numerals

/-!
# Different values have different texts

The text of a value determines the value, and where the text ends, in any text that it begins
(`Value.render_append_inj`). The first character tells the kinds of values apart
(`Value.exists_cons_render`); a string ends at the first quote that is not escaped, and a number
where the next character cannot belong to one.
-/

namespace StepLedger.Json

/-! ## Strings -/

section Strings

variable {s t : List Char}

theorem digitChar_inj : ∀ m < 16, ∀ n < 16, Nat.digitChar m = Nat.digitChar n → m = n := by
  decide

theorem escape?_u : Token.escape? 'u' = none := rfl

/-- What is written for a character in a string determines the character. -/
theorem renderChar_append_inj {c d : Char} (h : renderChar c ++ s = renderChar d ++ t) :
    c = d ∧ s = t := by
  obtain ⟨e, he, hc⟩ | ⟨hlt, hc⟩ | ⟨-, -, hslash, hc⟩ := Token.renderChar_eq c <;>
  obtain ⟨e', he', hd⟩ | ⟨hlt', hd⟩ | ⟨-, -, hslash', hd⟩ := Token.renderChar_eq d <;>
  simp only [hc, hd, List.cons_append, List.nil_append, List.cons.injEq, true_and] at h
  -- No short escape is that of a unit, and no character that stands for itself is a backslash.
  case inl.inl =>
    obtain ⟨rfl, hrest⟩ := h
    exact ⟨Option.some.inj (he.symm.trans he'), hrest⟩
  case inl.inr.inl =>
    rw [h.1, escape?_u] at he
    cases he
  case inr.inl.inl =>
    rw [← h.1, escape?_u] at he'
    cases he'
  case inr.inl.inr.inl =>
    obtain ⟨hhigh, hlow, hrest⟩ := h
    have hhigh := digitChar_inj _ (by omega) _ (by omega) hhigh
    have hlow := digitChar_inj _ (by omega) _ (by omega) hlow
    exact ⟨Char.toNat_inj.1 (by omega), hrest⟩
  case inr.inr.inr.inr => exact h
  all_goals grind

theorem head?_renderChar_append_ne (c : Char) : (renderChar c ++ s).head? ≠ some '"' := by
  obtain ⟨e, he, hc⟩ | ⟨hlt, hc⟩ | ⟨-, hquote, -, hc⟩ := Token.renderChar_eq c <;>
    rw [hc, List.cons_append, List.head?_cons, ne_eq, Option.some.injEq]
  · decide
  · decide
  · exact hquote

/-- The closing quote is the first one that is not escaped. -/
theorem flatMap_renderChar_append_inj : ∀ {a b : List Char},
    a.flatMap renderChar ++ '"' :: s = b.flatMap renderChar ++ '"' :: t → a = b ∧ s = t
  | [], [], h => ⟨rfl, (List.cons.inj h).2⟩
  | [], d :: b, h => by
    rw [List.flatMap_cons, List.append_assoc] at h
    exact absurd (congrArg List.head? h).symm (head?_renderChar_append_ne d)
  | c :: a, [], h => by
    rw [List.flatMap_cons, List.append_assoc] at h
    exact absurd (congrArg List.head? h) (head?_renderChar_append_ne c)
  | c :: a, d :: b, h => by
    rw [List.flatMap_cons, List.flatMap_cons, List.append_assoc, List.append_assoc] at h
    obtain ⟨rfl, htail⟩ := renderChar_append_inj h
    obtain ⟨rfl, hrest⟩ := flatMap_renderChar_append_inj htail
    exact ⟨rfl, hrest⟩

theorem renderString_append_inj {a b : String} (h : renderString a ++ s = renderString b ++ t) :
    a = b ∧ s = t := by
  simp only [renderString, List.cons_append, List.append_assoc, List.nil_append, List.cons.injEq,
    true_and] at h
  obtain ⟨hchars, hrest⟩ := flatMap_renderChar_append_inj h
  exact ⟨String.toList_inj.1 hchars, hrest⟩

end Strings

namespace Number

/-- A number ends where the next character cannot belong to one. -/
theorem render_append_inj {m n : Number} {s t : List Char}
    (hs : ∀ c ∈ s.head?, Token.isNumberChar c = false)
    (ht : ∀ c ∈ t.head?, Token.isNumberChar c = false)
    (h : m.render ++ s = n.render ++ t) : m = n ∧ s = t := by
  have htake : ∀ (n : Number) {s : List Char}, (∀ c ∈ s.head?, Token.isNumberChar c = false) →
      (n.render ++ s).takeWhile Token.isNumberChar = n.render := fun n s hs => by
    rw [List.takeWhile_append_of_pos n.numberChars_render.1]
    cases s with
    | nil => exact List.append_nil _
    | cons c s =>
      rw [List.takeWhile_cons_of_neg (by rw [hs c rfl]; decide), List.append_nil]
  have hrender : m.render = n.render := by rw [← htake m hs, h, htake n ht]
  obtain rfl := render_inj hrender
  exact ⟨rfl, List.append_cancel_left h⟩

end Number

namespace Value

/-! ## Kinds of values -/

/-- The kinds of values that the first character of a text tells apart. -/
inductive Kind where
  | null
  | bool (value : Bool)
  | number
  | string
  | array
  | object
deriving DecidableEq

/-- The kind of a value. -/
def kind : Value → Kind
  | .null => .null
  | .bool b => .bool b
  | .number _ => .number
  | .string _ => .string
  | .array _ => .array
  | .object _ => .object

/-- The kind of the values whose texts begin with a character, if there are any. -/
def Kind.ofChar? (c : Char) : Option Kind :=
  if c.isDigit ∨ c = '-' then some .number
  else
    match c with
    | 'n' => some .null
    | 't' => some (.bool true)
    | 'f' => some (.bool false)
    | '"' => some .string
    | '[' => some .array
    | '\x7b' => some .object
    | _ => none

theorem exists_cons_render (v : Value) :
    ∃ c cs, v.render = c :: cs ∧ Kind.ofChar? c = some v.kind := by
  match v with
  | .number n =>
    obtain ⟨-, c, cs, hrender, hc⟩ := n.numberChars_render
    exact ⟨c, cs, hrender, if_pos hc⟩
  | .null | .bool true | .bool false | .string _ | .array [] | .object [] | .array (_ :: _)
  | .object (_ :: _) => exact ⟨_, _, rfl, rfl⟩

variable {s t : List Char}

theorem kind_eq {v w : Value} (h : v.render ++ s = w.render ++ t) : v.kind = w.kind := by
  obtain ⟨c, cs, hv, hc⟩ := exists_cons_render v
  obtain ⟨d, ds, hw, hd⟩ := exists_cons_render w
  rw [hv, hw] at h
  obtain rfl := (List.cons.inj h).1
  exact Option.some.inj (hc.symm.trans hd)

/-- No value begins with the end of a container. -/
theorem cons_ne_render_append {c : Char} (hc : Kind.ofChar? c = none) (v : Value) :
    c :: s ≠ v.render ++ t := by
  intro h
  obtain ⟨d, ds, hv, hd⟩ := exists_cons_render v
  rw [hv] at h
  obtain rfl := (List.cons.inj h).1
  rw [hc] at hd
  cases hd

/-! ## Values -/

/-- An array that is not empty differs from the text of its items in the first character only. -/
theorem render_array_append_inj {items others : List Value}
    (hitems : ∀ {s t : List Char},
      renderItems items ++ s = renderItems others ++ t → items = others ∧ s = t)
    (h : (array items).render ++ s = (array others).render ++ t) : items = others ∧ s = t := by
  match items, others with
  | [], [] => exact ⟨rfl, List.append_cancel_left h⟩
  | [], other :: others =>
    simp only [render, List.cons_append, List.append_assoc, List.cons.injEq, true_and] at h
    exact absurd h (cons_ne_render_append rfl other)
  | item :: items, [] =>
    simp only [render, List.cons_append, List.append_assoc, List.cons.injEq, true_and] at h
    exact absurd h.symm (cons_ne_render_append rfl item)
  | item :: items, other :: others =>
    exact hitems (congrArg (',' :: ·) (List.cons.inj h).2)

theorem render_object_append_inj {fields others : List (String × Value)}
    (hfields : ∀ {s t : List Char},
      renderFields fields ++ s = renderFields others ++ t → fields = others ∧ s = t)
    (h : (object fields).render ++ s = (object others).render ++ t) : fields = others ∧ s = t := by
  match fields, others with
  | [], [] => exact ⟨rfl, List.append_cancel_left h⟩
  | [], (_, _) :: _ => simp [render, renderString] at h
  | (_, _) :: _, [] => simp [render, renderString] at h
  | (_, _) :: _, (_, _) :: _ => exact hfields (congrArg (',' :: ·) (List.cons.inj h).2)

mutual

/-- The text of a value determines the value and where the text ends. -/
theorem render_append_inj : ∀ {v w : Value} {s t : List Char}, Follows s → Follows t →
    v.render ++ s = w.render ++ t → v = w ∧ s = t
  -- Values of another kind begin otherwise (`kind_eq`).
  | .null, w, s, t, hs, ht, h => by
    cases w with
    | null => exact ⟨rfl, List.append_cancel_left h⟩
    | _ => cases kind_eq h
  | .bool b, w, s, t, hs, ht, h => by
    cases w with
    | bool b' =>
      obtain rfl : b = b' := Kind.bool.inj (kind_eq h)
      exact ⟨rfl, List.append_cancel_left h⟩
    | _ => cases kind_eq h
  | .number m, w, s, t, hs, ht, h => by
    cases w with
    | number n =>
      obtain ⟨rfl, hrest⟩ := Number.render_append_inj hs.not_isNumberChar ht.not_isNumberChar h
      exact ⟨rfl, hrest⟩
    | _ => cases kind_eq h
  | .string a, w, s, t, hs, ht, h => by
    cases w with
    | string b =>
      obtain ⟨rfl, hrest⟩ := renderString_append_inj h
      exact ⟨rfl, hrest⟩
    | _ => cases kind_eq h
  | .array items, w, s, t, hs, ht, h => by
    cases w with
    | array others =>
      obtain ⟨rfl, hrest⟩ := render_array_append_inj renderItems_append_inj h
      exact ⟨rfl, hrest⟩
    | _ => cases kind_eq h
  | .object fields, w, s, t, hs, ht, h => by
    cases w with
    | object others =>
      obtain ⟨rfl, hrest⟩ := render_object_append_inj renderFields_append_inj h
      exact ⟨rfl, hrest⟩
    | _ => cases kind_eq h

theorem renderItems_append_inj : ∀ {items others : List Value} {s t : List Char},
    renderItems items ++ s = renderItems others ++ t → items = others ∧ s = t
  | [], [], s, t, h => ⟨rfl, List.append_cancel_left h⟩
  | [], other :: others, s, t, h => by simp [renderItems] at h
  | item :: items, [], s, t, h => by simp [renderItems] at h
  | item :: items, other :: others, s, t, h => by
    simp only [renderItems, List.cons_append, List.append_assoc, List.cons.injEq, true_and] at h
    obtain ⟨rfl, htail⟩ :=
      render_append_inj (follows_renderItems items s) (follows_renderItems others t) h
    obtain ⟨rfl, hrest⟩ := renderItems_append_inj htail
    exact ⟨rfl, hrest⟩

theorem renderFields_append_inj : ∀ {fields others : List (String × Value)} {s t : List Char},
    renderFields fields ++ s = renderFields others ++ t → fields = others ∧ s = t
  | [], [], s, t, h => ⟨rfl, List.append_cancel_left h⟩
  | [], (_, _) :: _, s, t, h => by simp [renderFields] at h
  | (_, _) :: _, [], s, t, h => by simp [renderFields] at h
  | (name, value) :: fields, (name', other) :: others, s, t, h => by
    simp only [renderFields, List.cons_append, List.append_assoc, List.cons.injEq, true_and] at h
    obtain ⟨rfl, hafter⟩ := renderString_append_inj h
    obtain ⟨rfl, htail⟩ := render_append_inj (follows_renderFields fields s)
      (follows_renderFields others t) (List.cons.inj hafter).2
    obtain ⟨rfl, hrest⟩ := renderFields_append_inj htail
    exact ⟨rfl, hrest⟩

end

/-- Different values have different texts. -/
theorem render_inj {v w : Value} (h : v.render = w.render) : v = w := by
  have hend : Follows [] := fun _ hc => nomatch hc
  exact (render_append_inj hend hend (congrArg (· ++ []) h)).1

end Value

end StepLedger.Json

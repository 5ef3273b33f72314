import StepLedger.Text.Split

/-!
# Where texts are split

A text is cut at its first mark (`cut?_eq_some_iff`), and split at every one: parts without the mark are
what the text of them, with the mark in between, is split into (`split_intercalate`).
-/

namespace StepLedger.Text

variable {mark : Char}

/-- A text without the mark is not split. -/
theorem split_of_notMem {text : List Char} (h : mark ∉ text) : split mark text = [text] := by
  induction text with
  | nil => rfl
  | cons c text ih =>
    rw [List.mem_cons, not_or] at h
    rw [split, if_neg (Ne.symm h.1), ih h.2]

/-- A text without the mark is not cut. -/
theorem cut?_eq_none_iff {text : List Char} : cut? mark text = none ↔ mark ∉ text := by
  induction text with
  | nil => simp [cut?]
  | cons c text ih =>
    rw [cut?]
    split
    · next heq => simp [heq]
    · next hne => simp [ih, Ne.symm hne]

/-- A text is cut at its first mark. -/
theorem cut?_eq_some_iff {text before after : List Char} :
    cut? mark text = some (before, after) ↔ mark ∉ before ∧ text = before ++ mark :: after := by
  induction text generalizing before with
  | nil => simp [cut?]
  | cons c text ih =>
    rw [cut?]
    split
    · next heq =>
      subst heq
      cases before <;> simp_all
    · next hne =>
      rw [Option.map_eq_some_iff]
      constructor
      · rintro ⟨⟨first, rest⟩, hcut, heq⟩
        cases heq
        obtain ⟨hfirst, htext⟩ := ih.1 hcut
        exact ⟨by simp [Ne.symm hne, hfirst], by rw [htext]; rfl⟩
      · rintro ⟨hbefore, htext⟩
        cases before with
        | nil => exact absurd (List.cons.inj htext).1 hne
        | cons b before =>
          obtain ⟨rfl, hrest⟩ := List.cons.inj htext
          rw [List.mem_cons, not_or] at hbefore
          exact ⟨(before, after), ih.2 ⟨hbefore.2, hrest⟩, rfl⟩

/-- The part before the first mark is the first. -/
theorem split_append_cons {part : List Char} (h : mark ∉ part) (text : List Char) :
    split mark (part ++ mark :: text) = part :: split mark text := by
  induction part with
  | nil => rw [List.nil_append, split, if_pos rfl]
  | cons c part ih =>
    rw [List.mem_cons, not_or] at h
    rw [List.cons_append, split, if_neg (Ne.symm h.1), ih h.2]

/-- Parts with the mark between them are what the text is split into. -/
theorem split_intercalate {parts : List (List Char)} (hne : parts ≠ [])
    (h : ∀ part ∈ parts, mark ∉ part) : split mark (List.intercalate [mark] parts) = parts := by
  induction parts with
  | nil => exact absurd rfl hne
  | cons part parts ih =>
    rw [List.forall_mem_cons] at h
    cases parts with
    | nil => simpa [List.intercalate] using split_of_notMem h.1
    | cons next parts =>
      have hcons : List.intercalate [mark] (part :: next :: parts) =
          part ++ mark :: List.intercalate [mark] (next :: parts) := by simp [List.intercalate]
      rw [hcons, split_append_cons h.1, ih (List.cons_ne_nil _ _) h.2]

end StepLedger.Text

/-!
# Splitting texts

`Text.cut?` cuts a text at the first place where a character stands, `Text.split` at every one.
Joining the parts with that character gives the text back (`join_split`), and no part of a split
holds it (`not_mem_of_mem_split`).
-/

namespace StepLedger.Text

/-- The text before and after the first occurrence of a character. -/
def cut? (mark : Char) : List Char → Option (List Char × List Char)
  | [] => none
  | c :: text =>
    if c = mark then some ([], text)
    else (cut? mark text).map fun (before, after) => (c :: before, after)

/-- The parts of a text between the occurrences of a character; there is always one more of them
than there are occurrences. -/
def split (mark : Char) : List Char → List (List Char)
  | [] => [[]]
  | c :: text =>
    if c = mark then [] :: split mark text
    else
      match split mark text with
      | part :: parts => (c :: part) :: parts
      | [] => [[c]]

theorem split_ne_nil (mark : Char) (text : List Char) : split mark text ≠ [] := by
  cases text with
  | nil => simp [split]
  | cons c text =>
    rw [split]
    split
    · simp
    · split <;> simp

theorem join_split (mark : Char) (text : List Char) :
    List.intercalate [mark] (split mark text) = text := by
  induction text with
  | nil => rfl
  | cons c text ih =>
    rw [split]
    split
    · next h =>
      subst h
      cases hs : split c text with
      | nil => exact absurd hs (split_ne_nil c text)
      | cons part parts => rw [hs] at ih; simpa [List.intercalate] using ih
    · split
      · next part parts hs =>
        rw [hs] at ih
        cases parts with
        | nil => simpa [List.intercalate] using ih
        | cons next parts => simpa [List.intercalate] using ih
      · next hs => exact absurd hs (split_ne_nil mark text)

theorem not_mem_of_mem_split {mark : Char} {text part : List Char} (h : part ∈ split mark text) :
    mark ∉ part := by
  induction text generalizing part with
  | nil => simp [split] at h; simp [h]
  | cons c text ih =>
    rw [split] at h
    split at h
    · rcases List.mem_cons.1 h with rfl | h
      · simp
      · exact ih h
    · next hc =>
      split at h
      · next first parts hs =>
        rcases List.mem_cons.1 h with rfl | h
        · have := ih (hs ▸ List.mem_cons_self)
          simp [this, Ne.symm hc]
        · exact ih (hs ▸ List.mem_cons_of_mem _ h)
      · next hs => exact absurd hs (split_ne_nil mark text)

end StepLedger.Text

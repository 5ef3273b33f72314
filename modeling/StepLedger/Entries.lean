/-!
# Named entries in ascending order

Objects, directories and catalogues are lists of named entries kept by strictly ascending name.
`Entries.find?` reads one entry, `Entries.insert` adds or replaces one and `Entries.erase` removes
one. The order of names is that of their code points, which is also the order of their UTF-8 bytes.

`find?_insert_self` and `find?_insert_ne` hold of any list, and `Ascending.insert` keeps the order.
-/

namespace StepLedger

namespace Entries

variable {α : Type}

/-- The value stored under `name`. -/
def find? (name : String) : List (String × α) → Option α
  | [] => none
  | (key, value) :: rest => if key = name then some value else find? name rest

/-- Put `value` under `name`, replacing what is there. -/
def insert (name : String) (value : α) : List (String × α) → List (String × α)
  | [] => [(name, value)]
  | (key, old) :: rest =>
    if name < key then (name, value) :: (key, old) :: rest
    else if name = key then (name, value) :: rest
    else (key, old) :: insert name value rest

/-- Remove whatever is stored under `name`. -/
def erase (name : String) (entries : List (String × α)) : List (String × α) :=
  entries.filter (·.1 != name)

/-- The entries that a list of pairs leaves behind when they are put in one after the other. -/
def ofList (pairs : List (String × α)) : List (String × α) :=
  pairs.foldl (fun entries pair => insert pair.1 pair.2 entries) []

/-- Names strictly ascending, and so without repetition. -/
def Ascending (entries : List (String × α)) : Prop :=
  entries.Pairwise (·.1 < ·.1)

/-! ## Looking up after a change -/

theorem find?_insert_self (name : String) (value : α) (entries : List (String × α)) :
    find? name (insert name value entries) = some value := by
  induction entries with
  | nil => simp [insert, find?]
  | cons entry rest ih =>
    obtain ⟨key, old⟩ := entry
    rw [insert]
    split
    · simp [find?]
    · split
      · simp [find?]
      · next hne => simp [find?, Ne.symm hne, ih]

theorem find?_insert_ne {name other : String} (h : other ≠ name) (value : α)
    (entries : List (String × α)) :
    find? other (insert name value entries) = find? other entries := by
  induction entries with
  | nil => simp [insert, find?, Ne.symm h]
  | cons entry rest ih =>
    obtain ⟨key, old⟩ := entry
    rw [insert]
    split
    · simp [find?, Ne.symm h]
    · split
      · next heq => subst heq; simp [find?, Ne.symm h]
      · by_cases hk : key = other <;> simp [find?, hk, ih]

theorem find?_erase_self (name : String) (entries : List (String × α)) :
    find? name (erase name entries) = none := by
  induction entries with
  | nil => rfl
  | cons entry rest ih =>
    obtain ⟨key, value⟩ := entry
    by_cases h : key = name
    · simpa [erase, h] using ih
    · simpa [erase, h, find?] using ih

theorem find?_erase_ne {name other : String} (h : other ≠ name) (entries : List (String × α)) :
    find? other (erase name entries) = find? other entries := by
  induction entries with
  | nil => rfl
  | cons entry rest ih =>
    obtain ⟨key, value⟩ := entry
    by_cases hk : key = name
    · subst hk; simpa [erase, find?, Ne.symm h] using ih
    · by_cases ho : key = other
      · subst ho; simp [erase, find?, hk]
      · simpa [erase, find?, hk, ho] using ih

/-! ## The order of names -/

theorem mem_insert {name : String} {value : α} {entry : String × α} {entries : List (String × α)}
    (h : entry ∈ insert name value entries) : entry = (name, value) ∨ entry ∈ entries := by
  induction entries with
  | nil => simpa [insert] using h
  | cons head rest ih =>
    obtain ⟨key, old⟩ := head
    rw [insert] at h
    split at h
    · simpa using h
    · split at h
      · simp only [List.mem_cons] at h ⊢; exact h.imp_right .inr
      · simp only [List.mem_cons] at h ⊢
        exact h.elim (fun e => .inr (.inl e)) fun m => (ih m).imp_right .inr

/-- Of two different names one comes first. -/
theorem name_lt_of_not_lt {a b : String} (h : ¬ a < b) (hne : a ≠ b) : b < a := by
  apply Decidable.byContradiction
  intro hba
  exact hne (String.le_antisymm (String.not_lt.1 hba) (String.not_lt.1 h))

theorem Ascending.nil : Ascending ([] : List (String × α)) := List.Pairwise.nil

theorem Ascending.insert {entries : List (String × α)} (h : Ascending entries) (name : String)
    (value : α) : Ascending (Entries.insert name value entries) := by
  induction entries with
  | nil => simp [Entries.insert, Ascending]
  | cons head rest ih =>
    obtain ⟨key, old⟩ := head
    have hhead : ∀ entry ∈ rest, key < entry.1 := fun entry hm => List.rel_of_pairwise_cons h hm
    have hrest : Ascending rest := List.Pairwise.of_cons h
    rw [Entries.insert]
    split
    · next hlt =>
      refine List.Pairwise.cons (fun entry hm => ?_) h
      rcases List.mem_cons.1 hm with rfl | hm
      · exact hlt
      · exact String.lt_trans hlt (hhead entry hm)
    · split
      · next heq =>
        subst heq
        exact List.Pairwise.cons hhead hrest
      · next hge hne =>
        refine List.Pairwise.cons (fun entry hm => ?_) (ih hrest)
        rcases mem_insert hm with rfl | hm
        · exact name_lt_of_not_lt hge hne
        · exact hhead entry hm

theorem Ascending.filter {entries : List (String × α)} (h : Ascending entries)
    (keep : String × α → Bool) : Ascending (entries.filter keep) :=
  List.Pairwise.filter keep h

theorem Ascending.erase {entries : List (String × α)} (h : Ascending entries) (name : String) :
    Ascending (Entries.erase name entries) :=
  h.filter _

end Entries

end StepLedger

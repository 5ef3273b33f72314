import Mathlib.Data.List.Forall2
import StepLedger.Document.Update
import StepLedger.Proofs.Except
import StepLedger.Proofs.Json.Same

/-!
# The fields of documents

What `Document.get?` reads after each way of building a document: `set`, `ofList`, `restrict`,
`overlay`. A document is determined by what is read from it (`Document.ext_get?`), because its fields
are in order.
-/

namespace StepLedger

/-! ## Entries -/

namespace Entries

variable {α : Type}

theorem find?_eq_none_of_notMem {name : String} {entries : List (String × α)}
    (h : name ∉ entries.map (·.1)) : find? name entries = none := by
  induction entries with
  | nil => rfl
  | cons entry rest ih =>
    obtain ⟨key, value⟩ := entry
    simp only [List.map_cons, List.mem_cons, not_or] at h
    simpa [find?, Ne.symm h.1] using ih h.2

theorem mem_of_find?_eq_some {name : String} {value : α} {entries : List (String × α)}
    (h : find? name entries = some value) : (name, value) ∈ entries := by
  induction entries with
  | nil => cases h
  | cons entry rest ih =>
    obtain ⟨key, old⟩ := entry
    rw [find?] at h
    split at h
    · next hk => cases h; subst hk; exact List.mem_cons_self
    · exact List.mem_cons_of_mem _ (ih h)

theorem find?_map {β : Type} (f : α → β) (name : String) (entries : List (String × α)) :
    find? name (entries.map fun entry => (entry.1, f entry.2)) = (find? name entries).map f := by
  induction entries with
  | nil => rfl
  | cons entry rest ih =>
    obtain ⟨key, value⟩ := entry
    by_cases hk : key = name <;> simp [find?, hk, ih]

theorem find?_filter (keep : String → Bool) (name : String) (entries : List (String × α)) :
    find? name (entries.filter fun entry => keep entry.1) =
      if keep name then find? name entries else none := by
  induction entries with
  | nil => simp [find?]
  | cons entry rest ih =>
    obtain ⟨key, value⟩ := entry
    by_cases hk : key = name
    · subst hk
      by_cases hkeep : keep key <;> simp [find?, hkeep, ih]
    · by_cases hkeep : keep key <;> simp [find?, hkeep, ih, hk]

/-- Names that ascend do not repeat. -/
theorem Ascending.nodup {entries : List (String × α)} (h : Ascending entries) :
    (entries.map (·.1)).Nodup := by
  refine List.pairwise_map.2 (h.imp ?_)
  intro entry other hlt heq
  exact String.lt_irrefl _ (heq ▸ hlt)

theorem find?_eq_some_of_mem {name : String} {value : α} {entries : List (String × α)}
    (hn : (entries.map (·.1)).Nodup) (h : (name, value) ∈ entries) :
    find? name entries = some value := by
  induction entries with
  | nil => cases h
  | cons entry rest ih =>
    obtain ⟨key, old⟩ := entry
    rw [List.map_cons, List.nodup_cons] at hn
    rcases List.mem_cons.1 h with heq | hm
    · cases heq; simp [find?]
    · have hne : key ≠ name := by
        rintro rfl
        exact hn.1 (List.mem_map.2 ⟨_, hm, rfl⟩)
      simpa [find?, hne] using ih hn.2 hm

/-- Among names that do not repeat, what is found under a name is what stands there. -/
theorem find?_eq_some_iff_mem {name : String} {value : α} {entries : List (String × α)}
    (hn : (entries.map (·.1)).Nodup) : find? name entries = some value ↔ (name, value) ∈ entries :=
  ⟨mem_of_find?_eq_some, find?_eq_some_of_mem hn⟩

/-- A name before the first of all is not there. -/
theorem Ascending.find?_eq_none {key : String} {value : α} {rest : List (String × α)}
    (h : Ascending ((key, value) :: rest)) {name : String} (hlt : name < key) :
    find? name ((key, value) :: rest) = none := by
  refine find?_eq_none_of_notMem ?_
  rintro hm
  rcases List.mem_cons.1 hm with heq | hm
  · exact String.lt_irrefl _ (heq ▸ hlt)
  · obtain ⟨entry, hentry, rfl⟩ := List.mem_map.1 hm
    exact String.lt_irrefl _ (String.lt_trans hlt (List.rel_of_pairwise_cons h hentry))

/-- Entries in order whose names are found in both or in neither, with values in a relation, are
in that relation one by one. -/
theorem Ascending.forall₂ {β : Type} {r : α → β → Prop} {entries : List (String × α)}
    {others : List (String × β)} (h : Ascending entries) (h' : Ascending others)
    (hf : ∀ name, Option.Rel r (find? name entries) (find? name others)) :
    List.Forall₂ (fun entry other => entry.1 = other.1 ∧ r entry.2 other.2) entries others := by
  induction entries generalizing others with
  | nil =>
    cases others with
    | nil => exact .nil
    | cons other rest => obtain ⟨key, value⟩ := other; simpa [find?] using hf key
  | cons entry entries ih =>
    obtain ⟨key, value⟩ := entry
    cases others with
    | nil => simpa [find?] using hf key
    | cons other others =>
      obtain ⟨key', value'⟩ := other
      -- the first name of either list is found in the other, and nothing before its first
      have hge : ¬ key < key' := fun hlt => by
        have := hf key
        rw [h'.find?_eq_none hlt] at this
        simp [find?] at this
      have hle : ¬ key' < key := fun hlt => by
        have := hf key'
        rw [h.find?_eq_none hlt] at this
        simp [find?] at this
      have heq : key = key' := String.le_antisymm (String.not_lt.1 hle) (String.not_lt.1 hge)
      subst heq
      have hvalue : r value value' := by simpa [find?] using hf key
      have hn := h.nodup
      have hn' := h'.nodup
      rw [List.map_cons, List.nodup_cons] at hn hn'
      refine .cons ⟨rfl, hvalue⟩ (ih (List.Pairwise.of_cons h) (List.Pairwise.of_cons h') ?_)
      intro name
      by_cases hk : key = name
      · subst hk
        rw [find?_eq_none_of_notMem hn.1, find?_eq_none_of_notMem hn'.1]
        exact .none
      · simpa [find?, hk] using hf name

/-- Entries in order are determined by what is found under each name. -/
theorem Ascending.ext {entries others : List (String × α)} (h : Ascending entries)
    (h' : Ascending others) (hf : ∀ name, find? name entries = find? name others) :
    entries = others := by
  have hall := h.forall₂ (r := Eq) h' fun name => by
    rw [hf name]
    cases find? name others with
    | none => exact .none
    | some value => exact .some rfl
  exact List.forall₂_eq_eq_eq ▸ hall.imp fun _ _ heq => Prod.ext heq.1 heq.2

end Entries

/-! ## Documents -/

namespace Document

@[simp] theorem get?_empty (name : String) : empty.get? name = none := rfl

theorem get?_set (d : Document) (field name : String) (value : Json) :
    (d.set field value).get? name = if name = field then some value.value else d.get? name := by
  by_cases h : name = field
  · subst h; simpa [get?, set] using Entries.find?_insert_self name value.value d.fields
  · simpa [get?, set, h] using Entries.find?_insert_ne h value.value d.fields

@[simp] theorem get?_set_self (d : Document) (field : String) (value : Json) :
    (d.set field value).get? field = some value.value := by simp [get?_set]

theorem get?_set_ne (d : Document) {field name : String} (h : name ≠ field) (value : Json) :
    (d.set field value).get? name = d.get? name := by simp [get?_set, h]

theorem get?_of_mem {d : Document} {field : String × Json.Value} (h : field ∈ d.fields) :
    d.get? field.1 = some field.2 :=
  Entries.find?_eq_some_of_mem d.ordered.1.nodup h

/-- A document is determined by what is read from it. -/
theorem ext_get? {d e : Document} (h : ∀ name, d.get? name = e.get? name) : d = e :=
  Document.ext (Entries.Ascending.ext d.ordered.1 e.ordered.1 h)

/-- Fields put in one after the other: the first of a name to be found is the last put in. -/
theorem get?_foldl_set {fields : List (String × Json)} (hn : (fields.map (·.1)).Nodup)
    (d : Document) (name : String) :
    (fields.foldl (fun d field => d.set field.1 field.2) d).get? name =
      ((Entries.find? name fields).map Json.value).or (d.get? name) := by
  induction fields generalizing d with
  | nil => simp [Entries.find?]
  | cons field fields ih =>
    obtain ⟨key, value⟩ := field
    rw [List.map_cons, List.nodup_cons] at hn
    rw [List.foldl_cons, ih hn.2, get?_set]
    by_cases hk : key = name
    · subst hk
      simp [Entries.find?, Entries.find?_eq_none_of_notMem hn.1]
    · simp [Entries.find?, hk, Ne.symm hk]

theorem get?_ofList {fields : List (String × Json)} (hn : (fields.map (·.1)).Nodup)
    (name : String) :
    (ofList fields).get? name = (Entries.find? name fields).map Json.value := by
  simp [ofList, get?_foldl_set hn]

theorem get?_restrict (d : Document) (names : List String) (name : String) :
    (d.restrict names).get? name = if names.contains name then d.get? name else none :=
  Entries.find?_filter names.contains name d.fields

/-- The fields of a document with their values as they stand. -/
theorem map_value_toList (d : Document) :
    (d.toList.map fun field => (field.1, field.2.value)) = d.fields := by
  rw [toList, List.map_map]
  exact List.attach_map_subtype_val d.fields

theorem nodup_toList (d : Document) : (d.toList.map (·.1)).Nodup := by
  have h : d.toList.map (·.1) = d.fields.map (·.1) := by
    rw [← map_value_toList d, List.map_map]; rfl
  rw [h]
  exact Entries.Ascending.nodup d.ordered.1

theorem get?_overlay (d other : Document) (name : String) :
    (d.overlay other).get? name = (other.get? name).or (d.get? name) := by
  rw [overlay, get?_foldl_set (nodup_toList other), ← Entries.find?_map, map_value_toList]
  rfl

@[simp] theorem overlay_empty (d : Document) : d.overlay empty = d :=
  ext_get? fun name => by rw [get?_overlay, get?_empty, Option.none_or]

/-- Equal documents have equal fields. -/
theorem get?_of_same {d e : Document} (h : d.same e = true) (name : String) :
    d.get? name = none ∧ e.get? name = none ∨
      ∃ value other, d.get? name = some value ∧ e.get? name = some other ∧
        value.same other = true :=
  Json.Value.find?_of_sameFields (by simpa [same, Json.Value.same] using h)

theorem same_refl (d : Document) : d.same d = true := Json.Value.same_refl _

/-! ## Decoding fields -/

theorem field?_eq_ok {α : Type} {d : Document} {name : String}
    {decode : Json.Value → Except DecodeError α} {result : Option α} :
    d.field? name decode = .ok result ↔ d.get? name = none ∧ result = none ∨
      ∃ value a, d.get? name = some value ∧ decode value = .ok a ∧ result = some a := by
  unfold field? Json.Value.field? get?
  cases Entries.find? name d.fields with
  | none => simp [eq_comm]
  | some value => rw [Except.map_eq_ok]; simp [eq_comm]

/-- A field that is there is decoded from its value. -/
theorem field?_eq_some {α : Type} {d : Document} {name : String}
    {decode : Json.Value → Except DecodeError α} {a : α} :
    d.field? name decode = .ok (some a) ↔ ∃ value, d.get? name = some value ∧ decode value = .ok a := by
  rw [field?_eq_ok]
  constructor
  · rintro (⟨-, ⟨⟩⟩ | ⟨value, _, hvalue, ha, ⟨⟩⟩)
    exact ⟨value, hvalue, ha⟩
  · rintro ⟨value, hvalue, ha⟩
    exact .inr ⟨value, a, hvalue, ha, rfl⟩

/-- Decoding a field looks at nothing else. -/
theorem field?_congr {α : Type} {d e : Document} {name : String} (h : d.get? name = e.get? name)
    (decode : Json.Value → Except DecodeError α) : d.field? name decode = e.field? name decode := by
  unfold field? Json.Value.field?
  unfold get? at h
  rw [h]

end Document

theorem DecodeError.require_eq_ok {α : Type} {name : String} {o : Option α} {a : α} :
    require name o = .ok a ↔ o = some a := by
  cases o <;> simp [require]

end StepLedger

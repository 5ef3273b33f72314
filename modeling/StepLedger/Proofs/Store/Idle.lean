import StepLedger.Proofs.Store.Catalogue
import StepLedger.Proofs.Store.Outcome

/-!
# Requests that leave a store as it is

A store `Idles` if it stays as it is, archive and disk included; where a collection may be created,
an empty one may be left behind. A store idles when an operation gives back the collection that it
got (`Mutated.idles`), and when a request to update fails (`updateFirst_eq_of_error`,
`findAndModify_idles`).
-/

namespace StepLedger

/-- To put in what is there changes nothing. -/
theorem Entries.insert_of_find? {α : Type} {name : String} {value : α} {entries : List (String × α)}
    (h : Ascending entries) (hf : find? name entries = some value) :
    insert name value entries = entries := by
  refine (h.insert name value).ext h fun other => ?_
  by_cases hne : other = name
  · rw [hne, find?_insert_self, hf]
  · rw [find?_insert_ne hne]

namespace Store

variable {s s' : Store} {name : String} {create : Bool}

/-- Nothing has changed, but that a collection may have been created where `create` holds. -/
def Idles (s : Store) (name : String) (create : Bool) (s' : Store) : Prop :=
  s' = s ∨ create = true ∧ s' = s.creating name

theorem Idles.eq (h : s.Idles name false s') : s' = s := h.elim id fun ⟨hcreate, _⟩ => nomatch hcreate

/-- Nothing has changed where there was a collection. -/
theorem Idles.eq_of_isSome (h : s.Idles name create s') (hsome : (s.collection? name).isSome = true) :
    s' = s := h.elim id fun ⟨_, h⟩ => h.trans (if_pos hsome)

/-- What has a document is there. -/
theorem isSome_of_getElem? {i : Nat} {d : Document} (h : (s.view name).documents[i]? = some d) :
    (s.collection? name).isSome = true := by
  cases hc : s.collection? name with
  | none => rw [view, hc] at h; cases h
  | some c => rfl

theorem Idles.alike (h : s.Idles name create s') : s.Alike s' := by
  rcases h with rfl | ⟨-, rfl⟩
  · exact Alike.refl _
  · exact view_creating s name

theorem idles_creating (present : create = true ∨ (s.collection? name).isSome = true) :
    s.Idles name create (s.creating name) :=
  present.elim (fun hcreate => .inr ⟨hcreate, rfl⟩) fun hsome => .inl (if_pos hsome)

/-- To put a collection where it is creates it, if anything. -/
theorem Sorted.put_view (h : s.Sorted) (name : String) :
    s.put name (s.view name) = s.creating name := by
  cases hc : s.collection? name with
  | none => rw [creating_of_none hc, view, hc]; rfl
  | some c =>
    rw [creating_of_some hc, view, hc, Store.put]
    exact congrArg (fun collections => { s with collections }) (Entries.insert_of_find? h hc)

/-- An operation that gives back what it got leaves the store as it is. -/
theorem Mutated.idles {α : Type} {operation : Collection → Except StoreError α × Collection}
    {result : Except StoreError α} (h : Mutated s name create operation (result, s'))
    (hs : s.Sorted) (hsame : ∀ c, operation (s.view name) = (result, c) → c = s.view name) :
    s.Idles name create s' := by
  cases h with
  | refused | absent => exact .inl rfl
  | inMemory _ present _ outcome =>
    rw [hsame _ outcome, hs.put_view]
    exact idles_creating present
  | idle _ present | void _ present => exact idles_creating present
  | written _ _ _ outcome moved => exact absurd (congrArg Collection.revision (hsame _ outcome)) moved

/-! ## Updates -/

section Updates

variable {f : Filter} {u : Update}

theorem mutated_updateFirst (hs : s.WellFormed) (name : String) (f : Filter)
    (hu : u.isEmpty = false) : Mutated s name false (orUnchanged (·.updateFirst f u))
      (s.updateFirst name f u) := by
  rw [updateFirst_eq_mutate s name f hu]
  exact mutated_mutate hs name fun c hc => ((Edits.updateFirst name f hu).wellFormed hc).2

theorem mutated_findAndModify (hs : s.WellFormed) (name : String) (f : Filter)
    (how : FindAndModify) (hu : u.isEmpty = false) :
    Mutated s name how.upsert (orUnchanged (·.findAndModify f u how))
      (s.findAndModify name f u how) := by
  rw [findAndModify_eq_mutate s name f how hu]
  exact mutated_mutate hs name fun c hc => ((Edits.findAndModify name f how hu).wellFormed hc).2

variable (hs : s.Reachable)
include hs

/-- A request to update that fails changes nothing. -/
theorem updateFirst_eq_of_error {e : StoreError} (h : s.updateFirst name f u = (.error e, s')) :
    s' = s := by
  cases hu : u.isEmpty with
  | true => rw [updateFirst, if_pos hu] at h; cases h; rfl
  | false =>
    have hmutated := mutated_updateFirst hs.wellFormed name f hu
    rw [h] at hmutated
    refine (hmutated.idles hs.sorted fun c hc => ?_).eq
    rw [orUnchanged_of_error (eq_error_of_orUnchanged (congrArg Prod.fst hc))] at hc
    exact (congrArg Prod.snd hc).symm

/-- A store idles where a request to modify a document fails or gives back the collection. -/
theorem findAndModify_idles {how : FindAndModify} {result : Except StoreError (Option Document)}
    (h : s.findAndModify name f u how = (result, s'))
    (hsame : ∀ found c, result = .ok found →
      (s.view name).findAndModify f u how = .ok (found, c) → c = s.view name) :
    s.Idles name how.upsert s' := by
  cases hu : u.isEmpty with
  | true => rw [findAndModify, if_pos hu] at h; cases h; exact .inl rfl
  | false =>
    have hmutated := mutated_findAndModify hs.wellFormed name f how hu
    rw [h] at hmutated
    refine hmutated.idles hs.sorted fun c hc => ?_
    cases hop : (s.view name).findAndModify f u how with
    | error e => rw [orUnchanged_of_error hop] at hc; cases hc; rfl
    | ok found =>
      rw [orUnchanged_of_ok hop] at hc
      cases hc
      exact hsame _ _ rfl hop

end Updates

end Store

end StepLedger

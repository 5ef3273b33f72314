import StepLedger.Proofs.Store.Outcome

/-!
# What holds of every document of a collection

A property of documents is kept in a collection (`Store.Holds`) by every request that puts only
documents with the property there: those that are inserted (`Holds.insertOne`, `Holds.insertMany`),
what updates make of documents with the property that they select (`Holds.updateFirst`) and what an
upsert creates (`Holds.findAndModify`). Requests about other collections keep it anyway.
-/

namespace StepLedger.Store

variable {s s' : Store} {p : Document → Prop} {collection name : String}

/-- Every document of the collection has the property. -/
def Holds (p : Document → Prop) (s : Store) (collection : String) : Prop :=
  ∀ d ∈ (s.view collection).documents, p d

namespace Holds

theorem of_view (h : s.Holds p collection) (hview : s'.view collection = s.view collection) :
    s'.Holds p collection := by
  rw [Holds, hview]
  exact h

theorem of_alike (h : s.Holds p collection) (halike : s.Alike s') : s'.Holds p collection :=
  h.of_view (halike collection)

/-- A change of one collection does no harm if what it puts there is fine. -/
theorem of_becomes (h : s.Holds p collection) {ds : List Document} (hbecomes : s.Becomes s' name ds)
    (hds : collection = name → ∀ d ∈ ds, d ∈ (s.view name).documents ∨ p d) :
    s'.Holds p collection := by
  by_cases hne : collection = name
  · intro d hd
    rw [hne, hbecomes.documents] at hd
    rcases hds hne d hd with hold | hnew
    · exact h d (hne ▸ hold)
    · exact hnew
  · exact h.of_view (hbecomes.others collection hne)

section Requests

variable (hs : s.WellFormed) (h : s.Holds p collection)
include hs h

theorem insertOne {d : Document} (hd : p d) : (s.insertOne name d).2.Holds p collection := by
  cases hinsert : s.insertOne name d with
  | mk result s' =>
    cases result with
    | error e => exact h.of_alike (insertOne_error hs hinsert)
    | ok _ =>
      refine h.of_becomes (insertOne_ok hs hinsert) fun _ d' hd' => ?_
      rcases List.mem_append.1 hd' with hold | hnew
      · exact .inl hold
      · exact .inr (List.mem_singleton.1 hnew ▸ hd)

theorem insertMany {ds : List Document} (hds : ∀ d ∈ ds, p d) :
    (s.insertMany name ds).2.Holds p collection := by
  cases hinsert : s.insertMany name ds with
  | mk result s' =>
    obtain ⟨halike, -⟩ | ⟨inserted, hpre, -, hbecomes⟩ := insertMany_prefix hs hinsert
    · exact h.of_alike halike
    · refine h.of_becomes hbecomes fun _ d hd => ?_
      rcases List.mem_append.1 hd with hold | hnew
      · exact .inl hold
      · exact .inr (hds d (hpre.subset hnew))

omit hs in
/-- What is selected is replaced by what the update makes of it. -/
theorem replaced {f : Filter} {u : Update} {i : Nat} {before after : Document}
    (hkeep : ∀ before after, p before → f.selects before = true → u.apply before = .ok after → p after)
    (hfirst : (s.view name).first? f = some (i, before)) (happly : u.apply before = .ok after)
    (heffect : s.Becomes s' name ((s.view name).documents.set i after) ∨
      after.same before = true ∧ s.Alike s') : s'.Holds p collection := by
  rcases heffect with hbecomes | ⟨-, halike⟩
  · refine h.of_becomes hbecomes fun heq d hd => ?_
    obtain ⟨hi, hsel⟩ := Collection.first?_eq_some hfirst
    rcases List.mem_or_eq_of_mem_set hd with hold | rfl
    · exact .inl hold
    · exact .inr (hkeep before d (h before (heq ▸ List.mem_of_getElem? hi)) hsel happly)
  · exact h.of_alike halike

theorem updateFirst {f : Filter} {u : Update} (hkeep : ∀ before after, p before →
    f.selects before = true → u.apply before = .ok after → p after) :
    (s.updateFirst name f u).2.Holds p collection := by
  cases hupdate : s.updateFirst name f u with
  | mk result s' =>
    cases result with
    | error e => exact h.of_alike (updateFirst_error hs hupdate)
    | ok result =>
      obtain ⟨-, -, halike⟩ | ⟨i, before, after, hfirst, happly, -, heffect⟩ :=
        updateFirst_ok hs hupdate
      · exact h.of_alike halike
      · exact h.replaced hkeep hfirst happly heffect

theorem findAndModify {f : Filter} {u : Update} {how : FindAndModify} (hkeep : ∀ before after,
    p before → f.selects before = true → u.apply before = .ok after → p after)
    (hcreate : how.upsert = true → ∀ d, u.create f = .ok d → p d) :
    (s.findAndModify name f u how).2.Holds p collection := by
  cases hmodify : s.findAndModify name f u how with
  | mk result s' =>
    cases result with
    | error e => exact h.of_alike (findAndModify_error hs hmodify).1
    | ok found =>
      obtain ⟨i, before, after, hfirst, happly, -, heffect⟩ |
          ⟨-, ⟨-, -, halike⟩ | ⟨hup, created, hcreated, hbecomes, -⟩⟩ := findAndModify_ok hs hmodify
      · exact h.replaced hkeep hfirst happly heffect
      · exact h.of_alike halike
      · refine h.of_becomes hbecomes fun _ d hd => ?_
        rcases List.mem_append.1 hd with hold | hnew
        · exact .inl hold
        · rw [List.mem_singleton.1 hnew]
          exact .inr (hcreate hup created hcreated)

end Requests

end Holds

end StepLedger.Store

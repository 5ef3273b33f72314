import StepLedger.Proofs.Collection.History

/-!
# Two ways to update the first match

`Collection.updateFirst` answers with what it changed, `Collection.findAndModify` with the document as it
was or as it is. Apart from that they are the same: the document that is `Collection.Selected` is
updated alike or fails alike, and where there is none both leave the collection as it is
(`findAndModify_like_updateFirst`). So an update may be made either way, whatever calls stand around
it (`along_asModification`).
-/

namespace StepLedger.Collection

variable {c : Collection} {f : Filter} {u : Update} {how : FindAndModify} {i : Nat}
  {before : Document}

theorem IsFirst.not_lt {j : Nat} {d d' : Document} (hi : c.IsFirst f i d) (hj : c.IsFirst f j d') :
    ¬ i < j := by
  intro hlt
  have htaken : (c.documents.take j)[i]? = some d := by rw [List.getElem?_take_of_lt hlt, hi.here]
  have hnot := hj.none_before d (List.mem_of_getElem? htaken)
  rw [hi.selected] at hnot
  cases hnot

theorem IsFirst.unique {j : Nat} {d d' : Document} (hi : c.IsFirst f i d) (hj : c.IsFirst f j d') :
    i = j ∧ d = d' := by
  obtain rfl : i = j := Nat.le_antisymm (Nat.not_lt.1 (hj.not_lt hi)) (Nat.not_lt.1 (hi.not_lt hj))
  exact ⟨rfl, Option.some.inj (hi.here.symm.trans hj.here)⟩

/-- The document that an update acts on, with its place. -/
structure Selected (c : Collection) (f : Filter) (i : Nat) (d : Document) : Prop where
  /-- Some document has the text of the key that the filter asks for, if it asks for one. -/
  tried : ¬ c.Misses f
  first : c.IsFirst f i d

theorem Selected.first?_eq (h : c.Selected f i before) : c.first? f = some (i, before) := by
  obtain ⟨-, hnone | hmiss⟩ | ⟨-, j, d, hfound, his⟩ := c.first?_cases f
  · have hhead := h.first.head?_find
    rw [hnone] at hhead
    cases hhead
  · exact absurd hmiss h.tried
  obtain ⟨rfl, rfl⟩ := his.unique h.first
  exact hfound

theorem first?_of_not_selected (h : ∀ i d, ¬ c.Selected f i d) : c.first? f = none := by
  obtain ⟨hnone, -⟩ | ⟨hmiss, i, d, -, his⟩ := c.first?_cases f
  · exact hnone
  · exact absurd ⟨hmiss, his⟩ (h i d)

/-! ## The document can be updated, or it cannot -/

theorem Selected.updateFirst_eq (h : c.Selected f i before) :
    c.updateFirst f u = (u.apply before).map fun after =>
      (⟨1, if after.same before then 0 else 1⟩, c.replaceAt i before after) := by
  rw [updateFirst, h.first?_eq]
  dsimp only
  cases u.apply before <;> rfl

theorem Selected.findAndModify_eq (h : c.Selected f i before) :
    c.findAndModify f u how = (u.apply before).map fun after =>
      (some (if how.returnNew then after else before), c.replaceAt i before after) := by
  rw [findAndModify, h.first?_eq]
  dsimp only
  cases u.apply before <;> rfl

theorem updateFirst_of_not_selected (h : ∀ i d, ¬ c.Selected f i d) :
    c.updateFirst f u = .ok (⟨0, 0⟩, c) := by
  rw [updateFirst, first?_of_not_selected h]

theorem findAndModify_of_not_selected (h : ∀ i d, ¬ c.Selected f i d) (hup : how.upsert = false) :
    c.findAndModify f u how = .ok (none, c) := by
  rw [findAndModify, first?_of_not_selected h]
  simp [hup]

/-- Whether the update fails or not, it leaves the same collection, unless an upsert creates a
document. -/
theorem after_findAndModify (h : (∃ i before, c.Selected f i before) ∨ how.upsert = false) :
    c.after (.findAndModify f u how) = c.after (.updateFirst f u) := by
  by_cases hselected : ∃ i before, c.Selected f i before
  · obtain ⟨i, before, hselected⟩ := hselected
    cases happly : u.apply before with
    | error e =>
      rw [after_findAndModify_of_error (by rw [hselected.findAndModify_eq, happly]; rfl),
        after_updateFirst_of_error (by rw [hselected.updateFirst_eq, happly]; rfl)]
    | ok after =>
      rw [after_findAndModify_of_ok (by rw [hselected.findAndModify_eq, happly]; rfl),
        after_updateFirst_of_ok (by rw [hselected.updateFirst_eq, happly]; rfl)]
  · have hup : how.upsert = false := h.resolve_left hselected
    have hnone : ∀ i d, ¬ c.Selected f i d := fun i d hd => hselected ⟨i, d, hd⟩
    rw [after_findAndModify_of_ok (findAndModify_of_not_selected hnone hup),
      after_updateFirst_of_ok (updateFirst_of_not_selected hnone)]

/-! ## Calls one after the other -/

/-- The call that makes an update by `findAndModify` instead. -/
def Call.asModification (returnNew : Bool) : Call → Call
  | .updateFirst f u => .findAndModify f u ⟨returnNew, false⟩
  | call => call

theorem after_asModification (c : Collection) (returnNew : Bool) (call : Call) :
    c.after (call.asModification returnNew) = c.after call := by
  cases call with
  | updateFirst f u => exact after_findAndModify (.inr rfl)
  | insert | insertMany | findAndModify => rfl

/-- Among any calls the updates may be made either way. -/
theorem along_asModification (c : Collection) (returnNew : Bool) (calls : List Call) :
    c.along (calls.map (Call.asModification returnNew)) = c.along calls := by
  induction calls generalizing c with
  | nil => rfl
  | cons call calls ih =>
    have hnext := ih (c.after (call.asModification returnNew))
    rw [after_asModification] at hnext
    rw [List.map_cons, along, List.foldl_cons, after_asModification]
    exact hnext

/-- The document that is selected is updated by both or by neither, with the same error, and to the same
collection; the answer is the document before or after the update. If none is selected, both leave the
collection as it is, unless an upsert is asked for. -/
theorem findAndModify_like_updateFirst (c : Collection) (f : Filter) (u : Update) :
    (∀ i before, c.Selected f i before →
      (∃ e, c.updateFirst f u = .error e ∧ ∀ how, c.findAndModify f u how = .error e) ∨
      ∃ modified after c', c.updateFirst f u = .ok (⟨1, modified⟩, c') ∧
        c'.documents = c.documents.set i after ∧
        ∀ how, c.findAndModify f u how =
          .ok (some (if how.returnNew then after else before), c')) ∧
    ((∀ i before, ¬ c.Selected f i before) → c.updateFirst f u = .ok (⟨0, 0⟩, c) ∧
      ∀ how, how.upsert = false → c.findAndModify f u how = .ok (none, c)) ∧
    ∀ how, (∃ i before, c.Selected f i before) ∨ how.upsert = false →
      c.after (.findAndModify f u how) = c.after (.updateFirst f u) := by
  refine ⟨fun i before hselected => ?_, fun hnone => ?_, fun how => after_findAndModify⟩
  · cases happly : u.apply before with
    | error e =>
      refine .inl ⟨e, by rw [hselected.updateFirst_eq, happly]; rfl, fun how => ?_⟩
      rw [hselected.findAndModify_eq, happly]
      rfl
    | ok after =>
      refine .inr ⟨_, after, c.replaceAt i before after,
        by rw [hselected.updateFirst_eq, happly]; rfl, rfl, fun how => ?_⟩
      rw [hselected.findAndModify_eq, happly]
      rfl
  · exact ⟨updateFirst_of_not_selected hnone,
      fun how => findAndModify_of_not_selected hnone⟩

end StepLedger.Collection

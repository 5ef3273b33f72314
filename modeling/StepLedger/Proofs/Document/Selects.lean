import StepLedger.Document.Filter
import StepLedger.Proofs.Document.Fields
import StepLedger.Proofs.Json.Words

/-!
# What filters select

A clause on an exact value holds of the documents that have that very value (`holds_iff`). So filters
on keys and other words and texts can be read off the fields of a document.
-/

namespace StepLedger

/-- Equal documents have the same exact values. -/
theorem Document.get?_eq_of_same {d e : Document} {field : String} {value : Json}
    (hv : value.Exact) (h : d.same e = true) (he : e.get? field = some value.value) :
    d.get? field = some value.value := by
  obtain ⟨-, hnone⟩ | ⟨actual, other, hd, he', hsame⟩ := Document.get?_of_same h field
  · rw [he] at hnone; cases hnone
  · rw [he] at he'
    cases he'
    rw [hd, hv.eq_of_same actual hsame]

namespace Filter

theorem holds_iff {field : String} {value : Json} (hv : value.Exact) {d : Document} :
    holds (field, value) d = true ↔ d.get? field = some value.value := by
  rw [holds]
  cases hd : d.get? field with
  | none => simp [hv.notNull]
  | some actual =>
    refine ⟨fun h => by rw [hv.eq_of_same actual h], fun h => ?_⟩
    cases h
    exact Json.Value.same_refl _

theorem selects_and (f : Filter) (field : String) (value : Json) (d : Document) :
    (f.and field value).selects d = (f.selects d && holds (field, value) d) := by
  simp [selects, Filter.and]

theorem selects_eq (field : String) (value : Json) (d : Document) :
    (Filter.eq field value).selects d = holds (field, value) d := by
  simp [selects, Filter.eq, Filter.and, all]

theorem idValue?_byId (id : Json) : (byId id).idValue? = some id := by
  simp [idValue?, byId, Filter.eq, Filter.and, all]

theorem idValue?_byId_and (id : Json) (field : String) (value : Json) :
    ((byId id).and field value).idValue? = some id := by
  simp [idValue?, byId, Filter.eq, Filter.and, all]

theorem selects_byId_iff {id : Json} (hid : id.Exact) {d : Document} :
    (byId id).selects d = true ↔ d.get? idField = some id.value := by
  rw [byId, selects_eq, holds_iff hid]

theorem selects_byId_and_iff {id value : Json} (hid : id.Exact) {field : String} (hv : value.Exact)
    {d : Document} : ((byId id).and field value).selects d = true ↔
      d.get? idField = some id.value ∧ d.get? field = some value.value := by
  rw [selects_and, Bool.and_eq_true, selects_byId_iff hid, holds_iff hv]

end Filter

end StepLedger

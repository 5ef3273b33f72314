import StepLedger.Proofs.Document.Keys
import StepLedger.Proofs.Sequence.Counting
import StepLedger.Proofs.Store.Idle
import StepLedger.Proofs.Store.Kept

/-!
# Collections of counters

`Store.HoldsCounters` says that every document of a collection is a counter. The requests of
allocations and those that seed a counter keep it so and answer with counters. A counter is seeded
under its name, which no other counter has, so that its key is never a duplicate.
-/

namespace StepLedger

open Sequence

/-- The document of a counter. -/
def IsCounter (d : Document) : Prop := ∃ counter, Counter.decode d = .ok counter

/-! ## Updates of counters -/

theorem IsCounter.set_value {d : Document} (h : IsCounter d) (value : Int64) :
    IsCounter (d.set valueField (.ofInt64 value)) := by
  obtain ⟨counter, hdecode⟩ := h
  exact ⟨_, Counter.decode_set_value hdecode value⟩

/-- To add to a counter makes a counter. -/
theorem IsCounter.increment {d after : Document} (h : IsCounter d)
    (happly : (Update.empty.andInc valueField 1).apply d = .ok after) : IsCounter after := by
  obtain ⟨counter, hdecode⟩ := id h
  rw [Update.apply_increment (by decide),
    Update.increment_one (Counter.decode_eq_ok_iff.1 hdecode).2.1] at happly
  split at happly
  · cases happly
    exact h.set_value _
  · cases happly

/-- To write the value of a counter makes a counter. -/
theorem IsCounter.swap {d after : Document} (h : IsCounter d) {value : Int64}
    (happly : (Update.empty.andSet valueField (.ofInt64 value)).apply d = .ok after) :
    IsCounter after := by
  rw [Update.apply_andSet (by decide)] at happly
  cases happly
  exact h.set_value value

/-- To seed a counter that is there leaves it as it is. -/
theorem IsCounter.seed {d after : Document} (h : IsCounter d) {initial : Int64} {note : String}
    (happly : (Counter.seeding initial note).apply d = .ok after) : IsCounter after := by
  obtain rfl := Except.ok.inj
    ((Update.apply_setOnInsert (Counter.get?_id_seeding initial note) d).symm.trans happly)
  exact h

namespace Store

variable {s s' : Store} {collection name : String}

/-- A collection holds nothing but counters. -/
def HoldsCounters (s : Store) (collection : String) : Prop :=
  ∀ d ∈ (s.view collection).documents, IsCounter d

namespace HoldsCounters

theorem of_view (h : s.HoldsCounters collection)
    (hview : s'.view collection = s.view collection) : s'.HoldsCounters collection :=
  Holds.of_view h hview

section Requests

variable (hs : s.WellFormed) (h : s.HoldsCounters collection) {u : Update}
  (happly : ∀ before after, IsCounter before → u.apply before = .ok after → IsCounter after)
include hs h happly

theorem updateFirst (f : Filter) : (s.updateFirst collection f u).2.HoldsCounters collection :=
  Holds.updateFirst hs h fun before after hbefore _ => happly before after hbefore

theorem findAndModify {f : Filter} {how : FindAndModify}
    (hcreate : how.upsert = true → ∀ d, u.create f = .ok d → IsCounter d) :
    (s.findAndModify collection f u how).2.HoldsCounters collection :=
  Holds.findAndModify hs h (fun before after hbefore _ => happly before after hbefore) hcreate

end Requests

end HoldsCounters

/-! ## Answers -/

/-- What a request finds and changes among counters is a counter after that. -/
theorem isCounter_of_found (hs : s.WellFormed) {f : Filter} {u : Update} {upsert : Bool}
    (happly : ∀ before after, IsCounter before → u.apply before = .ok after → IsCounter after)
    {d : Document} (h : s.findAndModify collection f u ⟨true, upsert⟩ = (.ok (some d), s'))
    (h' : s'.HoldsCounters collection) : IsCounter d := by
  obtain ⟨i, before, after, hfirst, hafter, heq, heffect⟩ |
      ⟨-, ⟨-, hnone, -⟩ | ⟨-, created, -, hbecomes, heq⟩⟩ := findAndModify_ok hs h
  · obtain ⟨hi, -⟩ := Collection.first?_eq_some hfirst
    rcases heffect with hbecomes | ⟨-, halike⟩
    · refine h' d ?_
      rw [hbecomes.documents, show d = after from Option.some.inj heq]
      exact List.mem_set (List.getElem?_eq_some_iff.1 hi).1 after
    · have hbefore : IsCounter before := by
        refine h' before ?_
        rw [halike]
        exact List.mem_of_getElem? hi
      rw [show d = after from Option.some.inj heq]
      exact happly before after hbefore hafter
  · cases hnone
  · refine h' d ?_
    rw [hbecomes.documents, show d = created from Option.some.inj heq]
    exact List.mem_append_right _ List.mem_cons_self

/-- Where no document has the name of a counter, none has its key. -/
theorem key_notMem_of_first?_eq_none (hs : s.WellFormed)
    (hnone : (s.view collection).first? (.byId (.string name)) = none) :
    Document.keyText (.string name) ∉ (s.view collection).keys := by
  intro hmem
  have hkeys : some (Document.keyText (.string name)) ∈
      (s.view collection).documents.map Document.key? := by
    rw [(hs collection).1.keys]
    exact List.mem_map_of_mem hmem
  obtain ⟨d, hd, hkey⟩ := List.mem_map.1 hkeys
  obtain ⟨value, hid, hvalue⟩ := Option.map_eq_some_iff.1 hkey
  obtain rfl := Document.keyText_inj.1 hvalue
  have hsel := (Collection.first?_eq_none_iff (hs collection).1 (Filter.idValue?_byId _)
    (Json.exact_string name)).1 hnone d hd
  rw [(Filter.selects_byId_iff (Json.exact_string name)).2 hid] at hsel
  cases hsel

/-- To seed a counter never fails for what is stored. -/
theorem findAndModify_seeding_ne_error (hs : s.WellFormed) (initial : Int64) (note : String)
    (e : StoreError) : (s.view collection).findAndModify (.byId (.string name))
      (Counter.seeding initial note) ⟨true, true⟩ ≠ .error e := by
  have happly : ∀ d, (Counter.seeding initial note).apply d = .ok d :=
    Update.apply_setOnInsert (Counter.get?_id_seeding initial note)
  intro h
  obtain ⟨d, herror⟩ | hcreate | ⟨-, hnone, created, hcreate, hinsert⟩ :=
    Collection.findAndModify_eq_error h
  · rw [happly] at herror
    cases herror
  · rw [Counter.create_seeding] at hcreate
    cases hcreate
  · have hkey : created.key? = some (Document.keyText (.string name)) := by
      rw [Document.key?, Update.get?_id_of_create hcreate]
      rfl
    rw [Collection.insert_of_key hkey (key_notMem_of_first?_eq_none hs hnone)] at hinsert
    cases hinsert

/-- To seed a counter fails only where a store refuses. -/
theorem seed_error (hs : s.WellFormed) {initial : Int64} {note : String} {e : StoreError}
    (hseed : s.findAndModify collection (.byId (.string name)) (Counter.seeding initial note)
      ⟨true, true⟩ = (.error e, s')) :
    e.IsOutage ∨ e.kind = .invalidArgument ∧ isName collection = false := by
  obtain ⟨-, hempty | hkind | hname | hop⟩ := findAndModify_error hs hseed
  · rw [Counter.isEmpty_seeding] at hempty
    cases hempty
  · exact .inl hkind
  · have hmutated := mutated_findAndModify hs collection (.byId (.string name)) ⟨true, true⟩
      (Counter.isEmpty_seeding initial note)
    rw [hseed] at hmutated
    obtain hkind | hkind | hop := hmutated.cause
    · exact .inl hkind
    · exact .inr ⟨hkind, hname⟩
    · exact absurd (eq_error_of_orUnchanged hop) (findAndModify_seeding_ne_error hs _ _ e)
  · exact absurd hop (findAndModify_seeding_ne_error hs _ _ e)

end Store

end StepLedger

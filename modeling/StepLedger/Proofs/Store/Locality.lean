import StepLedger.Proofs.Program
import StepLedger.Proofs.Store.Outcome
import StepLedger.Proofs.Store.Serving

/-!
# What a request depends on

A request about a collection depends on that collection and on nothing else, where the store serves it.
So two stores that hold the same in a collection (`Store.Share`) give the same answer to a request about
it, and hold the same there afterwards (`Share.answer`). What is in their other collections makes no
difference to a program that only asks about this one (`Share.run`), nor does it change there
(`view_run_ne`).
-/

namespace StepLedger

/-- The request is about the collection and does not drop it. -/
structure Request.Within (collection : String) (request : Request) : Prop where
  about : request.collection = collection
  kept : ∀ other, request ≠ .dropCollection other

namespace Store

variable {s t : Store} {name other : String}

/-! ## Where a store is kept -/

theorem Mutated.isSome_archive {α : Type} {create : Bool} {result : Except StoreError α} {s' : Store}
    {operation : Collection → Except StoreError α × Collection}
    (h : Mutated s name create operation (result, s')) : s'.archive.isSome = s.archive.isSome := by
  cases h with
  | refused | absent | inMemory => rfl
  | idle | void => rw [archive_creating]
  | written _ _ durable => rw [durable]; rfl

/-- Requests leave a store in memory, or in files. -/
theorem isSome_archive_answer (hs : s.WellFormed) {request : Request}
    (hkept : ∀ other, request ≠ .dropCollection other) :
    (s.answer request).2.archive.isSome = s.archive.isSome := by
  have hanswered := s.answered request
  generalize s.answer request = outcome at hanswered ⊢
  cases hanswered with
  | idle => rfl
  | @edited _ _ absent _ edits => exact (edits.mutated hs absent).isSome_archive
  | dropped collection => exact absurd rfl (hkept collection)

/-! ## Stores that share a collection -/

/-- Two stores serve a collection, hold the same in it, and are both kept in memory or both in files. -/
structure Share (s t : Store) (name : String) : Prop where
  wellFormed : s.WellFormed ∧ t.WellFormed
  serves : s.Serves name ∧ t.Serves name
  view : t.view name = s.view name
  kept : t.archive.isSome = s.archive.isSome

namespace Share

theorem refl (hs : s.WellFormed) (h : s.Serves name) : s.Share s name :=
  ⟨⟨hs, hs⟩, ⟨h, h⟩, rfl, rfl⟩

/-- What an edit comes to is the same in both. -/
theorem mutate {request : Request} {create : Bool} {absent : request.Answer}
    {operation : Collection → Except StoreError request.Answer × Collection}
    (h : s.Share t request.collection) (hedits : Edits request create operation)
    (hblank : create = false → ∀ name, operation (.empty name) = (.ok absent, .empty name)) :
    (t.mutate request.collection create absent operation).1 =
        (s.mutate request.collection create absent operation).1 ∧
      (t.mutate request.collection create absent operation).2.view request.collection =
        (s.mutate request.collection create absent operation).2.view request.collection := by
  have hnamed : ∀ c : Collection, c.WellFormed → (operation c).2.name = c.name :=
    fun c hc => (hedits.wellFormed hc).2
  obtain ⟨hanswer, hafter⟩ := h.serves.1.settles_mutate h.wellFormed.1 hnamed
    fun hcreate => hblank hcreate request.collection
  obtain ⟨hanswer', hafter'⟩ := h.serves.2.settles_mutate h.wellFormed.2 hnamed
    fun hcreate => hblank hcreate request.collection
  rw [hanswer, hanswer', hafter, hafter', settled, settled, h.view, h.kept]
  exact ⟨rfl, rfl⟩

/-- What is looked up is the same in both. -/
theorem read {α : Type} {absent : α} {look : Collection → α} (h : s.Share t name)
    (habsent : look (.empty name) = absent) :
    (t.read name absent look).1 = (s.read name absent look).1 ∧
      (t.read name absent look).2.view name = (s.read name absent look).2.view name := by
  rw [read_of_check habsent h.serves.1.admitted, read_of_check habsent h.serves.2.admitted]
  exact ⟨by rw [h.view], h.view⟩

/-- What is asked about the collection is answered alike, and what is left there is the same. -/
theorem answer_view {request : Request} (h : s.Share t request.collection)
    (hkept : ∀ other, request ≠ .dropCollection other) :
    (t.answer request).1 = (s.answer request).1 ∧
      (t.answer request).2.view request.collection = (s.answer request).2.view request.collection := by
  cases request with
  | insertOne name d => exact h.mutate (.insertOne name d) nofun
  | insertMany name ds =>
    by_cases hds : ds = []
    · subst hds
      exact ⟨rfl, h.view⟩
    · rw [answer, answer, insertMany, insertMany, if_neg (by simpa using hds),
        if_neg (by simpa using hds)]
      exact h.mutate (.insertMany name hds) nofun
  | find name f => exact h.read rfl
  | count name f => exact h.read rfl
  | updateFirst name f u =>
    cases hu : u.isEmpty with
    | true =>
      rw [answer, answer, updateFirst, updateFirst, if_pos hu, if_pos hu]
      exact ⟨rfl, h.view⟩
    | false =>
      rw [answer, answer, updateFirst_eq_mutate s name f hu, updateFirst_eq_mutate t name f hu]
      exact h.mutate (.updateFirst name f hu) fun _ name =>
        orUnchanged_of_ok (Collection.updateFirst_empty name f u)
  | findAndModify name f u how =>
    cases hu : u.isEmpty with
    | true =>
      rw [answer, answer, findAndModify, findAndModify, if_pos hu, if_pos hu]
      exact ⟨rfl, h.view⟩
    | false =>
      rw [answer, answer, findAndModify_eq_mutate s name f how hu,
        findAndModify_eq_mutate t name f how hu]
      exact h.mutate (.findAndModify name f how hu) fun hup name =>
        orUnchanged_of_ok (Collection.findAndModify_empty name f u hup)
  | dropCollection name => exact absurd rfl (hkept name)

/-- Stores that share a collection answer a request about it alike and go on to share it. -/
theorem answer {request : Request} (h : s.Share t name) (hrequest : request.Within name) :
    (t.answer request).1 = (s.answer request).1 ∧
      (s.answer request).2.Share (t.answer request).2 name := by
  obtain ⟨rfl, hkept⟩ := hrequest
  obtain ⟨hanswer, hview⟩ := h.answer_view hkept
  refine ⟨hanswer, ⟨h.wellFormed.1.answer request, h.wellFormed.2.answer request⟩,
    ⟨h.serves.1.answer h.wellFormed.1 hkept, h.serves.2.answer h.wellFormed.2 hkept⟩, hview, ?_⟩
  rw [isSome_archive_answer h.wellFormed.1 hkept, isSome_archive_answer h.wellFormed.2 hkept, h.kept]

/-- A program that only asks about a collection that two stores share ends alike in both, and leaves
stores that share it. -/
theorem run {α : Type} {Q : α → Prop} {program : Program α} (h : s.Share t name)
    (hasks : program.Asks (Request.Within name) Q) :
    (program.run Store.answer t).1 = (program.run Store.answer s).1 ∧
      (program.run Store.answer s).2.Share (program.run Store.answer t).2 name := by
  induction program generalizing s t with
  | done a => exact ⟨rfl, h⟩
  | fail e => exact ⟨rfl, h⟩
  | stalled => exact ⟨rfl, h⟩
  | ask request next ih =>
    obtain ⟨hanswer, hshare⟩ := h.answer hasks.1
    rw [Program.run, Program.run]
    generalize s.answer request = outcome, t.answer request = outcome' at hanswer hshare ⊢
    obtain ⟨result, s'⟩ := outcome
    obtain ⟨result', t'⟩ := outcome'
    cases hanswer
    cases result with
    | error e => exact ⟨rfl, hshare⟩
    | ok answer => exact ih answer hshare (hasks.2 answer)

end Share

/-! ## What does not change -/

section

variable {s' : Store} {α : Type} {Q : α → Prop} {program : Program α} {outcome : Program.Outcome α}
  (hs : s.WellFormed) (hasks : program.Asks (Request.Within name) Q)
  (hrun : program.run Store.answer s = (outcome, s'))
include hs hasks hrun

/-- A program that only asks about one collection leaves the others as they were. -/
theorem view_run_ne (hne : other ≠ name) : s'.view other = s.view other := by
  have hkept := hasks.run (motive := fun s' : Store => s'.WellFormed ∧ s'.view other = s.view other)
    (fun s' request hs' hrequest => ⟨hs'.1.answer request, by
      rw [view_answer_ne hs'.1 (hrequest.about ▸ hne), hs'.2]⟩) ⟨hs, rfl⟩
  rw [hrun] at hkept
  exact hkept.2

/-- A program that drops no collection leaves a store that serves what it served. -/
theorem Serves.of_run (h : s.Serves other) : s'.Serves other := by
  have hkept := hasks.run (motive := fun s' : Store => s'.WellFormed ∧ s'.Serves other)
    (fun _ request hs' hrequest => ⟨hs'.1.answer request, hs'.2.answer hs'.1 hrequest.kept⟩)
    ⟨hs, h⟩
  rw [hrun] at hkept
  exact hkept.2

end

end Store

end StepLedger

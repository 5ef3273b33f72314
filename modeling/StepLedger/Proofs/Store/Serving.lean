import StepLedger.Proofs.Store.Mutated

/-!
# Stores that serve a collection

A store serves a collection if requests about it get through: the store is open, the collection may have
its name, and the file can be written on a disk that refuses nothing (`Store.Serves`). Then what a
request comes to is what the operation on the collection does (`Serves.settles_mutate`), and the store
goes on serving the collection afterwards, and every other that it serves (`Serves.answer`). A store in
memory serves every collection that may have its name.
-/

namespace StepLedger.Store

/-- Requests about the collection get through. -/
structure Serves (s : Store) (name : String) : Prop where
  admitted : s.check name = .ok ()
  ready : ∀ archive, s.archive = some archive → archive.Ready name
  unrefused : ∀ archive, s.archive = some archive → archive.disk.refused = none

variable {s s' : Store} {name other : String}

theorem serves_of_memory (hmemory : s.archive = none) (hcheck : s.check name = .ok ()) :
    s.Serves name where
  admitted := hcheck
  ready := by simp [hmemory]
  unrefused := by simp [hmemory]

/-! ## What a request comes to -/

/-- The collection that a store holds under a name after an operation on it. A store that is kept in
files lets go of what is no change. -/
def settled (s : Store) (name : String) (after : Collection) : Collection :=
  if s.archive.isSome ∧ after.revision = (s.view name).revision then s.view name else after

/-- The answer is that of the operation, and the collection after the operation is held. -/
structure Settles {α : Type} (s : Store) (name : String)
    (operation : Collection → Except StoreError α × Collection)
    (outcome : Except StoreError α × Store) : Prop where
  answer : outcome.1 = (operation (s.view name)).1
  after : outcome.2.view name = s.settled name (operation (s.view name)).2

section

variable {α : Type} {create : Bool} {absent : α}
  {operation : Collection → Except StoreError α × Collection}

/-- What has to be written is written. -/
theorem settles_commit (hready : ∀ archive, s.archive = some archive → archive.Ready name)
    (hunrefused : ∀ archive, s.archive = some archive → archive.disk.refused = none)
    (hname : isName name = true) {c : Collection} (hview : s.view name = c) (hc : c.name = name)
    (hnamed : (operation c).2.name = name) : Settles s name operation (s.commit c (operation c)) := by
  subst hview
  rw [commit, hc]
  cases harchive : s.archive with
  | none => exact ⟨rfl, (view_put_self s name _).trans (by rw [settled, harchive]; rfl)⟩
  | some archive =>
    have hsave := Archive.save_of_ready (hnamed.symm ▸ hname) (hnamed.symm ▸ hready archive harchive)
      (hunrefused archive harchive)
    dsimp only
    rw [hsave]
    split
    · next hstill => exact ⟨rfl, (if_pos ⟨Option.isSome_of_mem harchive, hstill⟩).symm⟩
    · next hmoved =>
      exact ⟨rfl, (view_put_self s name _).trans (if_neg fun h => hmoved h.2).symm⟩

/-- A request that edits a collection comes to what the operation does. -/
theorem Serves.settles_mutate (h : s.Serves name) (hs : s.WellFormed)
    (hnamed : ∀ c : Collection, c.WellFormed → (operation c).2.name = c.name)
    (hblank : create = false → operation (.empty name) = (.ok absent, .empty name)) :
    Settles s name operation (s.mutate name create absent operation) := by
  have hname := (check_eq_ok.1 h.admitted).2
  obtain ⟨hwf, hview⟩ := hs name
  rw [mutate, h.admitted]
  cases hc : s.collection? name with
  | some c =>
    have heq : s.view name = c := by rw [view, hc]; rfl
    rw [heq] at hwf hview
    exact settles_commit h.ready h.unrefused hname heq hview ((hnamed c hwf).trans hview)
  | none =>
    have heq : s.view name = .empty name := by rw [view, hc]; rfl
    cases create with
    | false =>
      refine ⟨?_, ?_⟩
      · rw [heq, hblank rfl]
        rfl
      · rw [settled, heq, hblank rfl]
        dsimp only
        rw [ite_self]
        exact heq
    | true =>
      have hput := view_put_empty hc
      obtain ⟨hanswer, hafter⟩ := settles_commit (s := s.put name (.empty name)) h.ready h.unrefused
        hname ((hput name).trans heq) rfl (hnamed _ (Collection.wellFormed_empty name))
      rw [settled, hput] at hafter
      rw [hput] at hanswer
      exact ⟨hanswer, hafter⟩

end

section Requests

variable (h : s.Serves name) (hs : s.WellFormed)
include h hs

/-- A document that can be inserted is. -/
theorem Serves.insertOne {d : Document} {c : Collection} (hop : (s.view name).insert d = .ok c) :
    ∃ s', s.insertOne name d = (.ok (), s') := by
  have hmap : ((s.view name).insert d).map ((), ·) = .ok ((), c) := by
    rw [hop]
    rfl
  refine ⟨(s.insertOne name d).2, Prod.ext ?_ rfl⟩
  rw [Store.insertOne]
  refine (h.settles_mutate hs (fun c hc => ?_) fun hcreate => ?_).answer.trans
    (congrArg Prod.fst (orUnchanged_of_ok hmap))
  · exact ((Edits.insertOne name d).wellFormed hc).2
  · cases hcreate

theorem Serves.updateFirst {f : Filter} {u : Update} (hu : u.isEmpty = false) {result : UpdateResult}
    {c : Collection} (hop : (s.view name).updateFirst f u = .ok (result, c)) :
    ∃ s', s.updateFirst name f u = (.ok result, s') := by
  refine ⟨(s.updateFirst name f u).2, Prod.ext ?_ rfl⟩
  rw [updateFirst_eq_mutate s name f hu]
  refine (h.settles_mutate hs (fun c hc => ?_) fun _ => ?_).answer.trans
    (congrArg Prod.fst (orUnchanged_of_ok hop))
  · exact ((Edits.updateFirst name f hu).wellFormed hc).2
  · exact orUnchanged_of_ok (Collection.updateFirst_empty name f u)

theorem Serves.findAndModify {f : Filter} {u : Update} {how : FindAndModify} (hu : u.isEmpty = false)
    {result : Option Document} {c : Collection}
    (hop : (s.view name).findAndModify f u how = .ok (result, c)) :
    ∃ s', s.findAndModify name f u how = (.ok result, s') := by
  refine ⟨(s.findAndModify name f u how).2, Prod.ext ?_ rfl⟩
  rw [findAndModify_eq_mutate s name f how hu]
  refine (h.settles_mutate hs (fun c hc => ?_) fun hup => ?_).answer.trans
    (congrArg Prod.fst (orUnchanged_of_ok hop))
  · exact ((Edits.findAndModify name f how hu).wellFormed hc).2
  · exact orUnchanged_of_ok (Collection.findAndModify_empty name f u hup)

end Requests

/-! ## What it leaves -/

/-- A request that edits a collection leaves a store that serves what it served. -/
theorem Serves.mutated {α : Type} {create : Bool} {result : Except StoreError α}
    {operation : Collection → Except StoreError α × Collection} (h : s.Serves other)
    (hm : Mutated s name create operation (result, s')) : s'.Serves other := by
  have hcheck : s'.check other = .ok () := by
    obtain ⟨hopened, hname⟩ := check_eq_ok.1 h.admitted
    exact check_eq_ok.2 ⟨hm.closed_eq.trans hopened, hname⟩
  refine ⟨hcheck, ?_, ?_⟩
  · intro archive' harchive'
    cases hm with
    | refused | absent => exact h.ready archive' harchive'
    | inMemory => exact h.ready archive' harchive'
    | idle | void => exact h.ready archive' ((archive_creating s name).symm.trans harchive')
    | @written archive _ c _ _ durable _ _ named ready =>
      subst named
      cases harchive'
      exact ready.keeping (h.ready archive durable)
  · intro archive' harchive'
    cases hm with
    | refused | absent => exact h.unrefused archive' harchive'
    | inMemory => exact h.unrefused archive' harchive'
    | idle | void => exact h.unrefused archive' ((archive_creating s name).symm.trans harchive')
    | @written archive _ _ _ _ durable =>
      cases harchive'
      exact h.unrefused archive durable

/-- Whatever is asked but to drop a collection, the store goes on serving what it served. -/
theorem Serves.answer (hs : s.WellFormed) {request : Request} (h : s.Serves other)
    (hdrop : ∀ collection, request ≠ .dropCollection collection) :
    (s.answer request).2.Serves other := by
  have hanswered := s.answered request
  generalize s.answer request = outcome at hanswered ⊢
  cases hanswered with
  | idle => exact h
  | @edited _ _ absent _ edits => exact h.mutated (edits.mutated hs absent)
  | dropped collection => exact absurd rfl (hdrop collection)

end StepLedger.Store

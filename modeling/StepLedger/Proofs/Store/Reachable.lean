import StepLedger.Proofs.Program
import StepLedger.Proofs.Store.Served

/-!
# Stores that can come about

A store begins in memory or with what is read from an archive. Then requests are answered, it may be
closed, and its disk may change. Whatever happens, its collections stay well formed
(`Reachable.wellFormed`).
-/

namespace StepLedger.Store

/-- The store on another disk, or on its own in another state. -/
def onDisk (s : Store) (disk : Disk) : Store :=
  { s with archive := s.archive.map fun archive => { archive with disk } }

/-- The stores that can come about. -/
inductive Reachable : Store → Prop
  | inMemory : Reachable .inMemory
  | ofArchive {archive : Archive} {s : Store} (h : Store.ofArchive archive = .ok s) : Reachable s
  | answer {s : Store} (request : Request) (h : Reachable s) : Reachable (s.answer request).2
  | close {s : Store} (h : Reachable s) : Reachable s.close
  | onDisk {s : Store} (disk : Disk) (h : Reachable s) : Reachable (s.onDisk disk)

/-! ## Requests keep collections well formed -/

theorem view_erase_ne (s : Store) {name other : String} (h : other ≠ name) :
    ({ s with collections := Entries.erase name s.collections } : Store).view other =
      s.view other := by
  simp [view, collection?, Entries.find?_erase_ne h]

theorem view_erase_self (s : Store) (name : String) :
    ({ s with collections := Entries.erase name s.collections } : Store).view name =
      .empty name := by
  simp [view, collection?, Entries.find?_erase_self]

/-- A collection that is dropped is empty, if it is not kept as it was; the others stay. -/
theorem view_drop (s : Store) (name other : String) :
    (s.drop name).2.view other = s.view other ∨
      other = name ∧ (s.drop name).2.view other = .empty name := by
  unfold drop
  cases s.check name with
  | error e => exact .inl rfl
  | ok _ =>
    cases harchive : s.archive with
    | none =>
      by_cases h : other = name
      · exact .inr ⟨h, by subst h; exact view_erase_self s other⟩
      · exact .inl (view_erase_ne s h)
    | some archive =>
      by_cases h : other = name
      · exact .inr ⟨h, by subst h; exact view_erase_self s other⟩
      · exact .inl (view_erase_ne s h)

/-- What is true of every collection, the empty ones among them, stays true with every request whose
edits keep it true of the collection that the request names. -/
theorem forall_view_answer {P : String → Collection → Prop} {s : Store} (hwf : s.WellFormed)
    (hs : ∀ name, P name (s.view name)) (hempty : ∀ name, P name (.empty name)) {request : Request}
    (hedits : ∀ {create : Bool} {operation : Collection → Except StoreError request.Answer × Collection},
      Edits request create operation →
        ∀ c, P request.collection c → P request.collection (operation c).2) (other : String) :
    P other ((s.answer request).2.view other) := by
  have h := s.answered request
  generalize s.answer request = outcome at h ⊢
  cases h with
  | idle => exact hs other
  | edited edits blank =>
    exact (served_mutate hwf fun hcreate => blank hcreate _).forall_view hs (hedits edits) other
  | dropped name =>
    obtain h | ⟨rfl, h⟩ := view_drop s name other
    · exact h.symm ▸ hs other
    · exact h.symm ▸ hempty other

/-- What requests do to a collection keeps it well formed. -/
theorem Edits.wellFormed {request : Request} {create : Bool}
    {operation : Collection → Except StoreError request.Answer × Collection}
    (h : Edits request create operation) {c : Collection} (hc : c.WellFormed) :
    (operation c).2.WellFormed ∧ (operation c).2.name = c.name := by
  have kept : c.WellFormed ∧ c.name = c.name := ⟨hc, rfl⟩
  cases h with
  | insertOne name d =>
    refine orUnchanged_induction kept fun {_ c'} hop => ?_
    obtain ⟨inserted, hi, heq⟩ := Except.map_eq_ok.1 hop
    cases heq
    exact ⟨hc.insert hi, Collection.name_of_insert hi⟩
  | @insertMany name ds => exact ⟨hc.insertMany ds, Collection.name_insertMany c ds⟩
  | updateFirst => exact orUnchanged_induction kept fun hop => hc.updateFirst hop
  | findAndModify => exact orUnchanged_induction kept fun hop => hc.findAndModify hop

/-- No request breaks a collection. -/
theorem WellFormed.answer {s : Store} (hs : s.WellFormed) (request : Request) :
    (s.answer request).2.WellFormed := by
  refine forall_view_answer (P := fun name c => c.WellFormed ∧ c.name = name) hs hs
    (fun name => ⟨Collection.wellFormed_empty name, rfl⟩) fun edits c hc => ?_
  obtain ⟨hwf, hname⟩ := edits.wellFormed hc.1
  exact ⟨hwf, hname.trans hc.2⟩

/-- What is left after an answer is well formed. -/
theorem WellFormed.of_answer {s s' : Store} (hs : s.WellFormed) (request : Request)
    {result : Except StoreError request.Answer} (h : s.answer request = (result, s')) :
    s'.WellFormed := by
  have hwf := hs.answer request
  rwa [h] at hwf

/-- What is left after a program is well formed. -/
theorem WellFormed.of_run {α : Type} {s s' : Store} (hs : s.WellFormed) {program : Program α}
    {outcome : Program.Outcome α} (h : program.run Store.answer s = (outcome, s')) :
    s'.WellFormed := by
  have hwf := program.asks_true.run (motive := WellFormed) (fun _ request hs _ => hs.answer request) hs
  rwa [h] at hwf

/-! ## Opening -/

theorem wellFormed_of_loadFiles {archive : Archive} {files : List (String × Node)}
    {cs : List Collection} (h : archive.loadFiles files = .ok cs) : ∀ c ∈ cs, c.WellFormed := by
  induction files generalizing cs with
  | nil => cases h; simp
  | cons file files ih =>
    obtain ⟨name, node⟩ := file
    rw [Archive.loadFiles] at h
    cases hg : Archive.genuine? name node with
    | none => rw [hg] at h; exact ih h
    | some snapshot =>
      rw [hg] at h
      dsimp only at h
      obtain ⟨c, hr, h⟩ := Except.bind_eq_ok.1 h
      obtain ⟨rest, hl, h⟩ := Except.bind_eq_ok.1 h
      cases h
      intro c' hc'
      rcases List.mem_cons.1 hc' with rfl | hc'
      · unfold Archive.restore at hr
        split at hr
        · exact (Collection.wellFormed_of_ofDocuments hr).1
        · cases hr
      · exact ih hl c' hc'

theorem WellFormed.put {s : Store} (hs : s.WellFormed) {name : String} {c : Collection}
    (hc : c.WellFormed ∧ c.name = name) : (s.put name c).WellFormed := by
  intro other
  by_cases h : other = name
  · subst h; rw [view_put_self]; exact hc
  · rw [view_put_ne s h]; exact hs other

/-- Collections put into an empty catalogue one after the other, each under its name. -/
theorem wellFormed_of_ofList {cs : List Collection} (h : ∀ c ∈ cs, c.WellFormed)
    (archive : Option Archive) (closed : Bool) :
    (Store.mk (Entries.ofList (cs.map fun c => (c.name, c))) archive closed).WellFormed := by
  rw [Entries.ofList, List.foldl_map]
  refine List.foldlRecOn (motive := fun entries => (Store.mk entries archive closed).WellFormed) cs _
    (fun name => ⟨Collection.wellFormed_empty name, rfl⟩) fun entries hs c hc => ?_
  exact WellFormed.put hs ⟨h c hc, rfl⟩

theorem wellFormed_of_ofArchive {archive : Archive} {s : Store} (h : ofArchive archive = .ok s) :
    s.WellFormed := by
  obtain ⟨cs, hl, h⟩ := Except.bind_eq_ok.1 h
  cases h
  refine wellFormed_of_ofList ?_ _ _
  unfold Archive.loadAll at hl
  split at hl
  · cases hl
  · split at hl
    · cases hl
    · exact wellFormed_of_loadFiles hl

/-- Every store that can come about is well formed. -/
theorem Reachable.wellFormed {s : Store} (h : s.Reachable) : s.WellFormed := by
  induction h with
  | inMemory => exact fun name => ⟨Collection.wellFormed_empty name, rfl⟩
  | ofArchive h => exact wellFormed_of_ofArchive h
  | answer request _ ih => exact ih.answer request
  | close _ ih => exact ih
  | onDisk disk _ ih => exact ih

end StepLedger.Store

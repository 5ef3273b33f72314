import StepLedger.Proofs.Archive
import StepLedger.Proofs.Store.Reachable

/-!
# What a request does to the catalogue and to the archive

`Mutated` says all that a changing request can do to a store, and `Dropped` all that dropping a
collection can do. What has to be written to the archive and cannot be takes no effect; but the
collection that was created for it stays.
-/

namespace StepLedger

theorem Entries.insert_cons_self {α : Type} (name : String) (value old : α)
    (entries : List (String × α)) :
    insert name value ((name, old) :: entries) = (name, value) :: entries := by
  rw [insert, if_neg (String.lt_irrefl name), if_pos rfl]

theorem Entries.insert_insert {α : Type} (name : String) (value old : α)
    (entries : List (String × α)) :
    insert name value (insert name old entries) = insert name value entries := by
  induction entries with
  | nil => exact insert_cons_self name value old []
  | cons entry rest ih =>
    obtain ⟨key, kept⟩ := entry
    by_cases hlt : name < key
    · simp [insert, hlt, insert_cons_self]
    · by_cases heq : name = key
      · subst heq
        rw [insert_cons_self, insert_cons_self, insert_cons_self]
      · simp [insert, hlt, heq, ih]

namespace Store

variable {s s' : Store} {name other : String}

/-! ## The catalogue -/

/-- The store with a collection of the name, an empty one if there was none. -/
def creating (s : Store) (name : String) : Store :=
  if (s.collection? name).isSome then s else s.put name (.empty name)

/-- The store without the collection of the name. -/
def erasing (s : Store) (name : String) : Store :=
  { s with collections := Entries.erase name s.collections }

/-- The store with a collection put under the name, in the archive as well. -/
def saving (s : Store) (name : String) (archive : Archive) (c : Collection) : Store :=
  { s.put name c with archive := some (archive.keeping c) }

/-- The store without the collection of the name, in the archive as well. -/
def discarding (s : Store) (name : String) (archive : Archive) : Store :=
  { s.erasing name with archive := some (archive.without name) }

theorem creating_of_some {c : Collection} (h : s.collection? name = some c) :
    s.creating name = s := by
  rw [creating, h]
  rfl

theorem creating_of_none (h : s.collection? name = none) :
    s.creating name = s.put name (.empty name) := by
  rw [creating, h]
  rfl

@[simp] theorem archive_creating (s : Store) (name : String) :
    (s.creating name).archive = s.archive := by
  rw [creating]
  split <;> rfl

theorem put_creating (s : Store) (name : String) (c : Collection) :
    (s.creating name).put name c = s.put name c := by
  rw [creating]
  split
  · rfl
  · rw [put, put, put, Entries.insert_insert]

theorem collection?_creating (s : Store) (name other : String) :
    (s.creating name).collection? other =
      if other = name then some (s.view name) else s.collection? other := by
  cases h : s.collection? name with
  | some c =>
    rw [creating_of_some h, view, h]
    split
    · next heq => rw [heq, h]; rfl
    · rfl
  | none => rw [creating_of_none h, collection?_put, view, h]; rfl

theorem view_creating (s : Store) (name other : String) :
    (s.creating name).view other = s.view other := by
  rw [view, collection?_creating]
  split
  · next heq => rw [heq]; rfl
  · rfl

theorem collection?_saving (s : Store) (name other : String) (archive : Archive) (c : Collection) :
    (s.saving name archive c).collection? other =
      if other = name then some c else s.collection? other := collection?_put s name other c

theorem view_saving_self (s : Store) (name : String) (archive : Archive) (c : Collection) :
    (s.saving name archive c).view name = c := view_put_self s name c

theorem view_saving_ne (s : Store) (h : other ≠ name) (archive : Archive) (c : Collection) :
    (s.saving name archive c).view other = s.view other := view_put_ne s h c

theorem collection?_erasing (s : Store) (name other : String) :
    (s.erasing name).collection? other = if other = name then none else s.collection? other := by
  split
  · next heq => rw [heq]; exact Entries.find?_erase_self _ _
  · next hne => exact Entries.find?_erase_ne hne _

theorem collection?_discarding (s : Store) (name other : String) (archive : Archive) :
    (s.discarding name archive).collection? other =
      if other = name then none else s.collection? other := collection?_erasing s name other

theorem view_discarding_self (s : Store) (name : String) (archive : Archive) :
    (s.discarding name archive).view name = .empty name := view_erase_self s name

theorem view_discarding_ne (s : Store) (h : other ≠ name) (archive : Archive) :
    (s.discarding name archive).view other = s.view other := view_erase_ne s h

theorem check_eq_ok : s.check name = .ok () ↔ s.closed = false ∧ isName name = true := by
  rw [check]
  cases s.closed <;> cases isName name <;>
    simp [throw, throwThe, MonadExceptOf.throw, pure, Except.pure]

/-! ## Changing a collection -/

/-- What an operation on the collection `name` does when a store carries it out. -/
inductive Mutated {α : Type} (s : Store) (name : String) (create : Bool)
    (operation : Collection → Except StoreError α × Collection) : Except StoreError α × Store → Prop
  /-- The store is closed, or no collection may have the name. -/
  | refused {e : StoreError} (cause : s.check name = .error e) :
      Mutated s name create operation (.error e, s)
  /-- There is no collection, and none is created. -/
  | absent {a : α} (plain : create = false) (missing : s.collection? name = none) :
      Mutated s name create operation (.ok a, s)
  /-- Without an archive the outcome takes effect at once. -/
  | inMemory {result : Except StoreError α} {c : Collection} (admitted : s.check name = .ok ())
      (present : create = true ∨ (s.collection? name).isSome = true) (memory : s.archive = none)
      (outcome : operation (s.view name) = (result, c)) :
      Mutated s name create operation (result, s.put name c)
  /-- The operation changed nothing, and nothing is written. -/
  | idle {archive : Archive} {result : Except StoreError α} {c : Collection}
      (admitted : s.check name = .ok ())
      (present : create = true ∨ (s.collection? name).isSome = true)
      (durable : s.archive = some archive) (outcome : operation (s.view name) = (result, c))
      (still : c.revision = (s.view name).revision) :
      Mutated s name create operation (result, s.creating name)
  /-- The change could not be written. -/
  | void {archive : Archive} {e : StoreError} {result : Except StoreError α} {c : Collection}
      (admitted : s.check name = .ok ())
      (present : create = true ∨ (s.collection? name).isSome = true)
      (durable : s.archive = some archive) (outcome : operation (s.view name) = (result, c))
      (moved : c.revision ≠ (s.view name).revision) (cause : e.IsOutage) :
      Mutated s name create operation (.error e, s.creating name)
  /-- The change was written, and then took effect. -/
  | written {archive : Archive} {result : Except StoreError α} {c : Collection}
      (admitted : s.check name = .ok ())
      (present : create = true ∨ (s.collection? name).isSome = true)
      (durable : s.archive = some archive) (outcome : operation (s.view name) = (result, c))
      (moved : c.revision ≠ (s.view name).revision) (named : c.name = name)
      (ready : archive.Ready name) :
      Mutated s name create operation (result, s.saving name archive c)

section

variable {α : Type} {create : Bool} {operation : Collection → Except StoreError α × Collection}

theorem mutated_commit (hs : (s.view name).name = name)
    (hop : (operation (s.view name)).2.name = (s.view name).name)
    (admitted : s.check name = .ok ())
    (present : create = true ∨ (s.collection? name).isSome = true) :
    Mutated s name create operation
      ((s.creating name).commit (s.view name) (operation (s.view name))) := by
  rw [commit, archive_creating]
  cases harchive : s.archive with
  | none =>
    rw [hs]
    dsimp only
    rw [put_creating]
    exact .inMemory admitted present harchive rfl
  | some archive =>
    dsimp only
    split
    · next hstill => exact .idle admitted present harchive rfl hstill
    · next hmoved =>
      have hname : (operation (s.view name)).2.name = name := hop.trans hs
      have hisName : isName (operation (s.view name)).2.name = true := by
        rw [hname]
        exact (check_eq_ok.1 admitted).2
      obtain ⟨e, houtage, hsave⟩ | ⟨hsave, hready⟩ := archive.save_cases hisName
      · rw [hsave]
        have hself : { s.creating name with archive := some archive } = s.creating name := by
          rw [← harchive, ← archive_creating s name]
        dsimp only
        rw [hself]
        exact .void admitted present harchive rfl hmoved houtage
      · rw [hsave, hs]
        dsimp only
        rw [put_creating]
        exact .written admitted present harchive rfl hmoved hname (hname ▸ hready)

theorem mutated_mutate (hs : s.WellFormed) (name : String) {absent : α}
    (hop : ∀ c : Collection, c.WellFormed → (operation c).2.name = c.name) :
    Mutated s name create operation (s.mutate name create absent operation) := by
  obtain ⟨hwf, hname⟩ := hs name
  rw [mutate]
  cases hcheck : s.check name with
  | error e => exact .refused hcheck
  | ok _ =>
    cases hc : s.collection? name with
    | some c =>
      have hpresent : create = true ∨ (s.collection? name).isSome = true := .inr (by rw [hc]; rfl)
      have hcommit := mutated_commit hname (hop _ hwf) hcheck hpresent
      rwa [creating_of_some hc, view, hc] at hcommit
    | none =>
      cases create with
      | false => exact .absent rfl hc
      | true =>
        have hcommit := mutated_commit hname (hop _ hwf) hcheck (.inl (Eq.refl true))
        rwa [creating_of_none hc, view, hc] at hcommit

end

/-- What becomes of a request that edits a collection. -/
theorem Edits.mutated {request : Request} {create : Bool}
    {operation : Collection → Except StoreError request.Answer × Collection}
    (h : Edits request create operation) (hs : s.WellFormed) (absent : request.Answer) :
    Mutated s request.collection create operation
      (s.mutate request.collection create absent operation) :=
  mutated_mutate hs _ fun _ hc => (h.wellFormed hc).2

/-! ## Dropping a collection -/

/-- What dropping a collection does to a store. -/
inductive Dropped (s : Store) (name : String) : Except StoreError Unit × Store → Prop
  | refused {e : StoreError} (cause : s.check name = .error e) : Dropped s name (.error e, s)
  | inMemory (admitted : s.check name = .ok ()) (memory : s.archive = none) :
      Dropped s name (.ok (), s.erasing name)
  /-- The collection had no file. -/
  | fileless {archive : Archive} (admitted : s.check name = .ok ())
      (durable : s.archive = some archive)
      (missing : archive.disk.files.find? (archive.file name) = none) :
      Dropped s name (.ok (), s.erasing name)
  | deleted {archive : Archive} (admitted : s.check name = .ok ())
      (durable : s.archive = some archive)
      (file : archive.disk.files.isDirectory (archive.place name) = false) :
      Dropped s name (.ok (), s.discarding name archive)
  /-- The file is still there, but the collection is not. -/
  | failed {archive : Archive} {outage : Outage} (admitted : s.check name = .ok ())
      (durable : s.archive = some archive) :
      Dropped s name (.error (.storeUnavailable outage), s.erasing name)

theorem dropped_drop (s : Store) (name : String) : Dropped s name (s.drop name) := by
  rw [drop]
  cases hcheck : s.check name with
  | error e => exact .refused hcheck
  | ok _ =>
    dsimp only
    split
    · next hmemory => exact .inMemory hcheck hmemory
    · next archive harchive =>
      have hself : { s.erasing name with archive := some archive } = s.erasing name := by
        rw [erasing, harchive]
      obtain ⟨hmissing, h⟩ | ⟨h, hfile⟩ | ⟨outage, h⟩ :=
        archive.delete_cases (check_eq_ok.1 hcheck).2
      · rw [h]
        exact hself ▸ .fileless hcheck harchive hmissing
      · rw [h]
        exact .deleted hcheck harchive hfile
      · rw [h]
        exact hself ▸ .failed hcheck harchive

/-! ## Closing -/

theorem closed_creating (s : Store) (name : String) : (s.creating name).closed = s.closed := by
  rw [creating]
  split <;> rfl

theorem Mutated.closed_eq {α : Type} {create : Bool} {result : Except StoreError α}
    {operation : Collection → Except StoreError α × Collection}
    (h : Mutated s name create operation (result, s')) : s'.closed = s.closed := by
  cases h with
  | idle | void => exact closed_creating s name
  | refused | absent | inMemory | written => rfl

theorem Dropped.closed_eq {result : Except StoreError Unit} (h : Dropped s name (result, s')) :
    s'.closed = s.closed := by
  cases h <;> rfl

/-- No request closes a store. -/
theorem closed_answer (hs : s.WellFormed) (request : Request) :
    (s.answer request).2.closed = s.closed := by
  have hanswered := s.answered request
  generalize s.answer request = outcome at hanswered ⊢
  cases hanswered with
  | idle => rfl
  | @edited _ _ absent _ edits => exact (edits.mutated hs absent).closed_eq
  | dropped name => exact (dropped_drop s name).closed_eq

end Store

end StepLedger

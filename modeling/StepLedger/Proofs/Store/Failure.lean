import StepLedger.Proofs.Store.Mutated
import StepLedger.Proofs.Store.Outcome

/-!
# What is left of a request that failed

A request that changes documents and fails leaves all documents and all files as they were; of a bulk
insert that stopped midway the documents before the one at fault are there, in memory and in the file
(`Store.failed_write`).
-/

namespace StepLedger

/-! ## Why operations fail -/

namespace Update

theorem kind_of_increment {d : Document} {field : String} {amount : Int64} {e : StoreError}
    (h : increment d field amount = .error e) : e.kind = .invalidArgument := by
  obtain hcurrent | ⟨n, -, h⟩ := Except.bind_eq_error.1 h
  · unfold current at hcurrent
    split at hcurrent
    · cases hcurrent
    · cases hcurrent
    · split at hcurrent
      · split at hcurrent <;> cases hcurrent
        rfl
      · cases hcurrent
        rfl
  · split at h <;> cases h
    rfl

theorem kind_of_foldlM_increment {fields : List (String × Int64)} {d : Document} {e : StoreError}
    (h : fields.foldlM (fun d field => increment d field.1 field.2) d = .error e) :
    e.kind = .invalidArgument := by
  induction fields generalizing d with
  | nil => cases h
  | cons field fields ih =>
    rw [List.foldlM_cons] at h
    obtain hfirst | ⟨next, -, hrest⟩ := Except.bind_eq_error.1 h
    · exact kind_of_increment hfirst
    · exact ih hrest

theorem kind_of_apply {u : Update} {d : Document} {e : StoreError} (h : u.apply d = .error e) :
    e.kind = .invalidArgument := by
  rw [apply_eq] at h
  split at h
  · cases h
    rfl
  · exact kind_of_foldlM_increment h

theorem kind_of_create {u : Update} {f : Filter} {e : StoreError} (h : u.create f = .error e) :
    e.kind = .invalidArgument := by
  rw [create] at h
  split at h
  · cases h
    rfl
  · exact kind_of_apply h

end Update

namespace Collection

variable {c : Collection} {f : Filter} {u : Update} {e : StoreError}

theorem kind_of_insert {d : Document} (h : c.insert d = .error e) :
    e.kind = .invalidArgument ∨ e.kind = .duplicateKey := by
  rw [insert] at h
  split at h
  · cases h
    exact .inl rfl
  · split at h <;> cases h
    exact .inr rfl

theorem kind_of_updateFirst (h : c.updateFirst f u = .error e) : e.kind = .invalidArgument := by
  rw [updateFirst] at h
  split at h
  · cases h
  · obtain happly | ⟨_, -, h⟩ := Except.bind_eq_error.1 h
    · exact Update.kind_of_apply happly
    · cases h

/-- An update that answers with what it finds fails where the update does, or cannot insert what it
makes. -/
theorem findAndModify_eq_error {how : FindAndModify} (h : c.findAndModify f u how = .error e) :
    (∃ d, u.apply d = .error e) ∨ u.create f = .error e ∨ how.upsert = true ∧ c.first? f = none ∧
      ∃ created, u.create f = .ok created ∧ c.insert created = .error e := by
  rw [findAndModify] at h
  split at h
  · obtain happly | ⟨_, -, h⟩ := Except.bind_eq_error.1 h
    · exact .inl ⟨_, happly⟩
    · cases h
  · next hnone =>
    split at h
    · next hup =>
      obtain hcreate | ⟨created, hcreate, h⟩ := Except.bind_eq_error.1 h
      · exact .inr (.inl hcreate)
      · obtain hinsert | ⟨_, -, h⟩ := Except.bind_eq_error.1 h
        · exact .inr (.inr ⟨hup, hnone, created, hcreate, hinsert⟩)
        · cases h
    · cases h

theorem kind_of_findAndModify {how : FindAndModify} (h : c.findAndModify f u how = .error e) :
    e.kind = .invalidArgument ∨ e.kind = .duplicateKey := by
  obtain ⟨d, happly⟩ | hcreate | ⟨-, -, created, -, hinsert⟩ := findAndModify_eq_error h
  · exact .inl (Update.kind_of_apply happly)
  · exact .inl (Update.kind_of_create hcreate)
  · exact kind_of_insert hinsert

end Collection

/-! ## Inserting midway -/

/-- A bulk insert that fails does so at one of the documents, and those before it are there. -/
theorem Collection.insertMany_error {c c' : Collection} {ds : List Document} {e : StoreError}
    (h : c.insertMany ds = (.error e, c')) : ∃ k source, e = .bulkWrite k source ∧
      k < ds.length ∧ c'.documents = c.documents ++ ds.take k ∧ c'.revision = c.revision + k := by
  obtain ⟨hok, -⟩ | ⟨k, source, herror, hk, hdocuments, hrevision⟩ := insertMany_cases c ds
  · rw [h] at hok
    cases hok
  · rw [h] at herror hdocuments hrevision
    cases herror
    exact ⟨k, source, rfl, hk, hdocuments, hrevision⟩

namespace Store

variable {s s' : Store} {a a' : Archive} {name : String}

/-! ## Causes -/

theorem eq_error_of_orUnchanged {α : Type} {operation : Collection → Except StoreError (α × Collection)}
    {c : Collection} {e : StoreError} (h : (orUnchanged operation c).1 = .error e) :
    operation c = .error e := by
  cases hop : operation c with
  | error e' => rw [orUnchanged_of_error hop] at h; cases h; rfl
  | ok result => rw [orUnchanged_of_ok hop] at h; cases h

/-- A request that edits a collection fails in the store or in the operation. -/
theorem Mutated.cause {α : Type} {create : Bool} {e : StoreError}
    {operation : Collection → Except StoreError α × Collection}
    (h : Mutated s name create operation (.error e, s')) : e.IsOutage ∨
      e.kind = .invalidArgument ∨ (operation (s.view name)).1 = .error e := by
  cases h with
  | refused cause => exact (kind_of_check cause).imp .inl .inl
  | void _ _ _ _ _ cause => exact .inl cause
  | inMemory _ _ _ outcome | idle _ _ _ outcome | written _ _ _ outcome =>
    exact .inr (.inr (by rw [outcome]))

/-- A request fails in the store, or in the operation by which it edits a collection. -/
theorem cause_of_answer (hs : s.WellFormed) (request : Request) {e : StoreError}
    (h : s.answer request = (.error e, s')) : e.IsOutage ∨
      e.kind = .invalidArgument ∨ ∃ create operation, Edits request create operation ∧
        (operation (s.view request.collection)).1 = .error e := by
  have hanswered := s.answered request
  generalize s.answer request = outcome at hanswered h
  cases hanswered with
  | idle plain cause =>
    cases h
    exact (cause e rfl).imp .inl .inl
  | @edited _ create absent operation edits =>
    refine (Mutated.cause (h ▸ edits.mutated hs absent)).imp_right (Or.imp_right fun hop => ?_)
    exact ⟨create, operation, edits, hop⟩
  | dropped name =>
    have hdropped := h ▸ dropped_drop s name
    cases hdropped with
    | refused cause => exact (kind_of_check cause).imp .inl .inl
    | failed => exact .inl (.inl rfl)

/-- An edit fails because of an argument or of a key, as a whole or midway. -/
theorem Edits.kind_of_error {request : Request} {create : Bool}
    {operation : Collection → Except StoreError request.Answer × Collection}
    (h : Edits request create operation) {c : Collection} {e : StoreError}
    (he : (operation c).1 = .error e) :
    e.kind = .invalidArgument ∨ e.kind = .duplicateKey ∨ e.kind = .bulkWrite := by
  cases h with
  | insertOne name d =>
    have hkind := Collection.kind_of_insert (Except.map_eq_error.1 (eq_error_of_orUnchanged he))
    exact hkind.imp_right .inl
  | insertMany name =>
    obtain ⟨k, source, rfl, -⟩ := Collection.insertMany_error (Prod.ext he rfl)
    exact .inr (.inr rfl)
  | updateFirst => exact .inl (Collection.kind_of_updateFirst (eq_error_of_orUnchanged he))
  | findAndModify =>
    exact (Collection.kind_of_findAndModify (eq_error_of_orUnchanged he)).imp_right .inl

section Causes

variable (hs : s.WellFormed) {e : StoreError}
include hs

/-- A store does not report a conflict, nor that something is missing. -/
theorem kind_of_answer (request : Request) (h : s.answer request = (.error e, s')) :
    e.kind ≠ .notFound ∧ e.kind ≠ .optimisticLockConflict := by
  obtain houtage | hkind | ⟨create, operation, hedits, hop⟩ := cause_of_answer hs request h
  · obtain hkind | hkind := houtage.kind <;> simp [hkind]
  · simp [hkind]
  · obtain hkind | hkind | hkind := hedits.kind_of_error hop <;> simp [hkind]

/-- Only a bulk insert stops midway. -/
theorem kind_ne_bulkWrite {request : Request} (hrequest : ∀ name ds, request ≠ .insertMany name ds)
    (h : s.answer request = (.error e, s')) : e.kind ≠ .bulkWrite := by
  obtain houtage | hkind | ⟨create, operation, hedits, hop⟩ := cause_of_answer hs request h
  · obtain hkind | hkind := houtage.kind <;> simp [hkind]
  · simp [hkind]
  · cases hedits with
    | insertOne =>
      have hkind := Collection.kind_of_insert (Except.map_eq_error.1 (eq_error_of_orUnchanged hop))
      rcases hkind with hkind | hkind <;> simp [hkind]
    | insertMany name => exact absurd rfl (hrequest name _)
    | updateFirst => simp [Collection.kind_of_updateFirst (eq_error_of_orUnchanged hop)]
    | findAndModify =>
      have hkind := Collection.kind_of_findAndModify (eq_error_of_orUnchanged hop)
      rcases hkind with hkind | hkind <;> simp [hkind]

/-- To insert a document fails in the store, or in the collection. -/
theorem cause_of_insertOne {d : Document} (h : s.insertOne name d = (.error e, s')) :
    e.IsOutage ∨ e.kind = .invalidArgument ∨ (s.view name).insert d = .error e := by
  have hcause := cause_of_answer hs (.insertOne name d) h
  refine hcause.imp_right (Or.imp_right fun ⟨create, operation, hedits, hop⟩ => ?_)
  cases hedits
  exact Except.map_eq_error.1 (eq_error_of_orUnchanged hop)

theorem cause_of_insertMany {ds : List Document} (h : s.insertMany name ds = (.error e, s')) :
    e.IsOutage ∨ e.kind = .invalidArgument ∨
      ((s.view name).insertMany ds).1 = .error e := by
  have hcause := cause_of_answer hs (.insertMany name ds) h
  refine hcause.imp_right (Or.imp_right fun ⟨create, operation, hedits, hop⟩ => ?_)
  cases hedits
  exact hop

theorem cause_of_updateFirst {f : Filter} {u : Update}
    (h : s.updateFirst name f u = (.error e, s')) :
    e.IsOutage ∨ e.kind = .invalidArgument := by
  have hcause := cause_of_answer hs (.updateFirst name f u) h
  refine hcause.imp_right fun hcause => hcause.elim id fun ⟨create, operation, hedits, hop⟩ => ?_
  cases hedits
  exact Collection.kind_of_updateFirst (eq_error_of_orUnchanged hop)

theorem cause_of_findAndModify {f : Filter} {u : Update} {how : FindAndModify}
    (h : s.findAndModify name f u how = (.error e, s')) : e.IsOutage ∨
      e.kind = .invalidArgument ∨ how.upsert = true ∧ (s.view name).first? f = none ∧
        ∃ created, u.create f = .ok created ∧ (s.view name).insert created = .error e := by
  have hcause := cause_of_answer hs (.findAndModify name f u how) h
  refine hcause.imp_right fun hcause => hcause.elim .inl fun ⟨create, operation, hedits, hop⟩ => ?_
  cases hedits
  obtain ⟨d, happly⟩ | hcreate | hinsert :=
    Collection.findAndModify_eq_error (eq_error_of_orUnchanged hop)
  · exact .inl (Update.kind_of_apply happly)
  · exact .inl (Update.kind_of_create hcreate)
  · exact .inr hinsert

end Causes

/-! ## Documents and files -/

/-- Some documents are put behind those of a collection, in memory and, if there are any, in the file
of the collection. Nothing else changes. -/
structure Appended (s s' : Store) (a a' : Archive) (name : String) (ds : List Document) : Prop where
  documents : (s'.view name).documents = (s.view name).documents ++ ds
  others : ∀ other, other ≠ name → (s'.view other).documents = (s.view other).documents
  file : ds ≠ [] → a'.disk.files.find? (a'.file name) =
    some (.file (Snapshot.ofCollection a'.disk.now (s'.view name)).text)
  unwritten : ds = [] → a'.disk.files = a.disk.files
  files : ∀ place, place ≠ (a.file name).place →
    a'.disk.files.node? place = a.disk.files.node? place
  directory : a'.directory = a.directory

/-- Documents and files are as they were. -/
structure Untouched (s s' : Store) (a a' : Archive) : Prop where
  documents : ∀ name, (s'.view name).documents = (s.view name).documents
  files : a'.disk.files = a.disk.files
  directory : a'.directory = a.directory

theorem Untouched.refl (s : Store) (a : Archive) : s.Untouched s a a := ⟨fun _ => rfl, rfl, rfl⟩

theorem Untouched.creating (s : Store) (a : Archive) (name : String) :
    s.Untouched (s.creating name) a a :=
  ⟨fun other => by rw [view_creating], rfl, rfl⟩

theorem Untouched.appended (h : s.Untouched s' a a') (name : String) :
    s.Appended s' a a' name [] where
  documents := by rw [h.documents, List.append_nil]
  others := fun other _ => h.documents other
  file := fun hne => absurd rfl hne
  unwritten := fun _ => h.files
  files := fun place _ => by rw [h.files]
  directory := h.directory

/-- An operation that fails as a whole leaves everything untouched. Its error is that of the store or
of the operation. -/
theorem Mutated.untouched {α : Type} {create : Bool} {e : StoreError}
    {operation : Collection → Except StoreError (α × Collection)}
    (h : Mutated s name create (orUnchanged operation) (.error e, s')) (ha : s.archive = some a) :
    s'.archive = some a ∧ s.Untouched s' a a ∧ (e.IsOutage ∨
      e.kind = .invalidArgument ∨ operation (s.view name) = .error e) := by
  have hop : ∀ {c}, orUnchanged operation (s.view name) = (.error e, c) →
      operation (s.view name) = .error e ∧ c = s.view name := by
    intro c outcome
    cases hop : operation (s.view name) with
    | error e' => rw [orUnchanged_of_error hop] at outcome; cases outcome; exact ⟨rfl, rfl⟩
    | ok result => rw [orUnchanged_of_ok hop] at outcome; cases outcome
  cases h with
  | refused cause => exact ⟨ha, .refl s a, (kind_of_check cause).imp .inl .inl⟩
  | inMemory _ _ memory => rw [ha] at memory; cases memory
  | idle _ _ _ outcome =>
    exact ⟨(archive_creating s name).trans ha, .creating s a name, .inr (.inr (hop outcome).1)⟩
  | void _ _ _ _ _ cause =>
    exact ⟨(archive_creating s name).trans ha, .creating s a name, .inl cause⟩
  | written _ _ _ outcome moved =>
    obtain ⟨-, rfl⟩ := hop outcome
    exact absurd rfl moved

/-- A change that was written is in the file, and the other files are as they were. -/
theorem appended_saving {c : Collection} {ds : List Document} (hname : isName name = true)
    (hc : c.name = name) (hready : a.Ready name) (hds : ds ≠ [])
    (hdocuments : c.documents = (s.view name).documents ++ ds) :
    s.Appended (s.saving name a c) a (a.keeping c) name ds where
  documents := by rw [view_saving_self, hdocuments]
  others := fun other hne => by rw [view_saving_ne s hne]
  file := fun _ => by
    subst hc
    rw [view_saving_self]
    exact hready.find?_keeping hname
  unwritten := fun hnil => absurd hnil hds
  files := fun place hplace => by
    rw [Archive.place_file hname, ← hc] at hplace
    exact Archive.node?_keeping_ne hplace
  directory := rfl

/-- A bulk insert that fails does so before it takes effect, or at one of the documents. -/
theorem Mutated.of_insertMany_error {ds : List Document} {e : StoreError}
    (h : Mutated s name true (·.insertMany ds) (.error e, s')) (ha : s.archive = some a) :
    s'.archive = some a ∧ s.Untouched s' a a ∧
        (e.IsOutage ∨ e.kind = .invalidArgument) ∨
      ∃ a' k source, s'.archive = some a' ∧ e = .bulkWrite k source ∧ k < ds.length ∧
        s.Appended s' a a' name (ds.take k) := by
  cases h with
  | refused cause => exact .inl ⟨ha, .refl s a, (kind_of_check cause).imp_left .inl⟩
  | inMemory _ _ memory => rw [ha] at memory; cases memory
  | idle _ _ _ outcome still =>
    obtain ⟨k, source, he, hk, -, hrevision⟩ := Collection.insertMany_error outcome
    obtain rfl : k = 0 := by omega
    refine .inr ⟨a, 0, source, (archive_creating s name).trans ha, he, hk, ?_⟩
    rw [List.take_zero]
    exact (Untouched.creating s a name).appended name
  | void _ _ _ _ _ cause =>
    exact .inl ⟨(archive_creating s name).trans ha, .creating s a name, .inl cause⟩
  | @written archive _ c admitted _ durable outcome moved named ready =>
    obtain ⟨k, source, he, hk, hdocuments, hrevision⟩ := Collection.insertMany_error outcome
    obtain rfl : archive = a := Option.some.inj (durable.symm.trans ha)
    have hne : ds.take k ≠ [] := by
      rw [ne_eq, List.take_eq_nil_iff]
      rintro (rfl | rfl)
      · exact moved hrevision
      · exact Nat.not_lt_zero _ hk
    exact .inr ⟨_, k, source, rfl, he, hk,
      appended_saving (check_eq_ok.1 admitted).2 named ready hne hdocuments⟩

/-- A bulk insert that fails does so before it takes effect, or at one of the documents. -/
theorem insertMany_error (hs : s.WellFormed) {ds : List Document} {e : StoreError}
    (h : s.insertMany name ds = (.error e, s')) :
    s.Alike s' ∧ e.kind ≠ .bulkWrite ∨ ∃ k source, e = .bulkWrite k source ∧ k < ds.length ∧
      s.Becomes s' name ((s.view name).documents ++ ds.take k) := by
  have hds : ds ≠ [] := by
    rintro rfl
    cases h
  have hm : Mutated s name true (·.insertMany ds) (s.mutate name true 0 (·.insertMany ds)) :=
    (Edits.insertMany name hds).mutated hs _
  rw [insertMany, if_neg (by simpa using hds)] at h
  rw [h] at hm
  cases hm with
  | refused cause =>
    refine .inl ⟨.refl s, ?_⟩
    rcases kind_of_check cause with hkind | hkind <;> simp [hkind]
  | inMemory _ _ _ outcome =>
    obtain ⟨k, source, he, hk, hdocuments, -⟩ := Collection.insertMany_error outcome
    refine .inr ⟨k, source, he, hk, ?_, fun other hne => view_put_ne s hne _⟩
    rw [view_put_self]
    exact hdocuments
  | idle _ _ _ outcome still =>
    obtain ⟨k, source, he, hk, -, hrevision⟩ := Collection.insertMany_error outcome
    obtain rfl : k = 0 := by omega
    refine .inr ⟨0, source, he, hk, ?_, fun other _ => view_creating s _ other⟩
    rw [view_creating, List.take_zero, List.append_nil]
  | void _ _ _ _ _ cause =>
    refine .inl ⟨view_creating s _, ?_⟩
    rcases cause.kind with hkind | hkind <;> simp [hkind]
  | written _ _ _ outcome =>
    obtain ⟨k, source, he, hk, hdocuments, -⟩ := Collection.insertMany_error outcome
    refine .inr ⟨k, source, he, hk, ?_, fun other hne => view_saving_ne s hne _ _⟩
    rw [view_saving_self]
    exact hdocuments

/-- The errors of a request that fails as a whole. -/
def IsWhole (e : StoreError) : Prop :=
  e.IsOutage ∨ e.kind = .invalidArgument ∨ e.kind = .duplicateKey

/-- An edit that fails as a whole. -/
theorem untouched_or_appended_of_edits {request : Request} {create : Bool}
    {operation : Collection → Except StoreError request.Answer × Collection} {e : StoreError}
    (hedits : Edits request create operation) (ha : s.archive = some a)
    (hm : Mutated s request.collection create operation (.error e, s')) :
    s'.archive = some a ∧ s.Untouched s' a a ∧ IsWhole e ∨
      ∃ name ds a' k source, request = .insertMany name ds ∧ s'.archive = some a' ∧
        e = .bulkWrite k source ∧ k < ds.length ∧ s.Appended s' a a' name (ds.take k) := by
  cases hedits with
  | insertOne name d =>
    obtain ⟨hsame, huntouched, hkind⟩ := hm.untouched ha
    refine .inl ⟨hsame, huntouched, hkind.imp_right fun hkind => ?_⟩
    exact hkind.elim .inl fun hop => Collection.kind_of_insert (Except.map_eq_error.1 hop)
  | @insertMany name ds =>
    obtain ⟨hsame, huntouched, hkind⟩ | ⟨a', k, source, hkept, he, hk, happended⟩ :=
      hm.of_insertMany_error ha
    · exact .inl ⟨hsame, huntouched, hkind.imp_right .inl⟩
    · exact .inr ⟨name, ds, a', k, source, rfl, hkept, he, hk, happended⟩
  | updateFirst =>
    obtain ⟨hsame, huntouched, hkind⟩ := hm.untouched ha
    refine .inl ⟨hsame, huntouched, hkind.imp_right fun hkind => ?_⟩
    exact .inl (hkind.elim id Collection.kind_of_updateFirst)
  | findAndModify =>
    obtain ⟨hsame, huntouched, hkind⟩ := hm.untouched ha
    refine .inl ⟨hsame, huntouched, hkind.imp_right fun hkind => ?_⟩
    exact hkind.elim .inl Collection.kind_of_findAndModify

/-- A request that changes documents fails as a whole, unless it is a bulk insert. -/
theorem untouched_or_appended {request : Request} {e : StoreError} (hs : s.WellFormed)
    (ha : s.archive = some a) (hdrop : ∀ name, request ≠ .dropCollection name)
    (h : s.answer request = (.error e, s')) :
    s'.archive = some a ∧ s.Untouched s' a a ∧ IsWhole e ∨
      ∃ name ds a' k source, request = .insertMany name ds ∧ s'.archive = some a' ∧
        e = .bulkWrite k source ∧ k < ds.length ∧ s.Appended s' a a' name (ds.take k) := by
  have hanswered := s.answered request
  generalize s.answer request = outcome at hanswered h
  cases hanswered with
  | idle plain cause =>
    cases h
    exact .inl ⟨ha, .refl s a, (cause e rfl).imp .inl .inl⟩
  | @edited _ _ absent _ edits =>
    exact untouched_or_appended_of_edits edits ha (h ▸ edits.mutated hs absent)
  | dropped name => exact absurd rfl (hdrop name)

/-- A request that changes documents and fails leaves all documents and all files as they were,
whatever it failed for. A bulk insert that stopped midway is the exception: the documents before the
one at fault are there, in memory and in the file, and nothing else changed. -/
theorem failed_write {request : Request} {e : StoreError} (hs : s.Reachable)
    (ha : s.archive = some a) (hdrop : ∀ name, request ≠ .dropCollection name)
    (h : s.answer request = (.error e, s')) : ∃ a', s'.archive = some a' ∧
      ((∀ k source, e ≠ .bulkWrite k source) → s.Untouched s' a a') ∧
      ∀ k source, e = .bulkWrite k source → ∃ name ds, request = .insertMany name ds ∧
        k < ds.length ∧ s.Appended s' a a' name (ds.take k) := by
  obtain ⟨hsame, huntouched, hkind⟩ | ⟨name, ds, a', k, source, hrequest, hkept, he, hk, happended⟩ :=
    untouched_or_appended hs.wellFormed ha hdrop h
  · refine ⟨a, hsame, fun _ => huntouched, fun k source he => ?_⟩
    subst he
    obtain houtage | hkind | hkind := hkind
    · rcases houtage.kind with hkind | hkind <;> cases hkind
    all_goals cases hkind
  · refine ⟨a', hkept, fun hne => absurd he (hne k source), fun k' source' he' => ?_⟩
    cases he.symm.trans he'
    exact ⟨name, ds, hrequest, hk, happended⟩

end Store

/-- An archive in an empty directory of a disk that refuses an operation, or none. -/
def Archive.drawer (refused : Option Disk.Operation) : Archive where
  disk := {
    files := ⟨[(["data"], .directory)]⟩
    now := ⟨⟨2016, 12, 31, by decide, by decide, by decide⟩, 86399, 1500000000, by decide, by decide⟩
    refused }
  directory := .ofText "data"
  durability := .sync

/-- The store that is kept in such an archive and holds nothing so far. -/
def Store.cabinet (refused : Option Disk.Operation) : Store := ⟨[], some (.drawer refused), false⟩

/-- A document with a key. -/
def Document.page : Document := .ofList [("id", .ofInt64 7)]

theorem Store.reachable_cabinet (refused : Option Disk.Operation) : (cabinet refused).Reachable := by
  have hopen : ofArchive (.drawer none) = .ok (cabinet none) := rfl
  exact .onDisk (Archive.drawer refused).disk (.ofArchive hopen)

/-- A document is refused for want of a place, and one of two for want of a key. -/
theorem Store.failed_write_of_page :
    (∃ outage s' a', (cabinet (some .rename)).answer (.insertOne "pages" .page) =
        (.error (.storeUnavailable outage), s') ∧ s'.archive = some a' ∧
      (cabinet (some .rename)).Untouched s' (.drawer (some .rename)) a') ∧
    ∃ source s' a', (cabinet none).answer (.insertMany "pages" [.page, .empty]) =
        (.error (.bulkWrite 1 source), s') ∧ s'.archive = some a' ∧
      (cabinet none).Appended s' (.drawer none) a' "pages" [.page] := by
  have hfull : ((cabinet (some .rename)).answer (.insertOne "pages" .page)).1 =
      .error (.storeUnavailable (.rename .noSpace)) := rfl
  have hkeyless : ((cabinet none).answer (.insertMany "pages" [.page, .empty])).1 =
      .error (.bulkWrite 1 (.invalidArgument (.noKey "pages"))) := rfl
  constructor
  · obtain ⟨a', hkept, hwhole, -⟩ := failed_write (reachable_cabinet (some .rename)) rfl
      (fun name => by simp) (Prod.ext hfull rfl)
    exact ⟨_, _, a', Prod.ext hfull rfl, hkept, hwhole (by simp)⟩
  · obtain ⟨a', hkept, -, hmidway⟩ := failed_write (reachable_cabinet none) rfl
      (fun name => by simp) (Prod.ext hkeyless rfl)
    obtain ⟨name, ds, hrequest, -, happended⟩ := hmidway _ _ rfl
    cases hrequest
    exact ⟨_, _, a', Prod.ext hkeyless rfl, hkept, happended⟩

end StepLedger

import StepLedger.Proofs.Collection.FirstMatch
import StepLedger.Proofs.Store.Served

/-!
# What collections go through

A `Call` is what may change a collection, and `Collection.after` the collection after it. A call that
fails leaves the collection as it is; only of a batch the documents before the one that failed stay.
Whatever calls are made, the key texts are those of the documents (`Collection.Consistent`), and the
primary keys are those that were inserted, in that order and each in its place (`ids_along`).
-/

namespace StepLedger.Collection

/-- What may change a collection. -/
inductive Call where
  | insert (d : Document)
  | insertMany (ds : List Document)
  | updateFirst (f : Filter) (u : Update)
  | findAndModify (f : Filter) (u : Update) (how : FindAndModify)

/-- The collection after a call. -/
def after (c : Collection) : Call → Collection
  | .insert d => (Store.orUnchanged (fun c => (c.insert d).map ((), ·)) c).2
  | .insertMany ds => (c.insertMany ds).2
  | .updateFirst f u => (Store.orUnchanged (·.updateFirst f u) c).2
  | .findAndModify f u how => (Store.orUnchanged (·.findAndModify f u how) c).2

/-- The document, if it can be inserted. -/
def admitted (c : Collection) (d : Document) : List Document :=
  match c.insert d with
  | .ok _ => [d]
  | .error _ => []

/-- The documents that a call inserts, in order. -/
def inserted (c : Collection) : Call → List Document
  | .insert d => c.admitted d
  | .insertMany ds =>
    match (c.insertMany ds).1 with
    | .error (.bulkWrite n _) => ds.take n
    | _ => ds
  | .updateFirst _ _ => []
  | .findAndModify f u how =>
    match c.first? f, how.upsert, u.create f with
    | none, true, .ok d => c.admitted d
    | _, _, _ => []

/-- The collection after calls, one after the other. -/
def along (c : Collection) (calls : List Call) : Collection := calls.foldl after c

/-- The documents that calls insert, in order. -/
def insertedAlong (c : Collection) : List Call → List Document
  | [] => []
  | call :: calls => c.inserted call ++ (c.after call).insertedAlong calls

/-- The primary keys of documents. -/
def ids (ds : List Document) : List (Option Json.Value) := ds.map (·.get? idField)

variable {c c' : Collection} {d : Document} {f : Filter} {u : Update} {how : FindAndModify}
  {e : StoreError}

/-! ## What a call leaves -/

theorem after_insert_of_ok (h : c.insert d = .ok c') : c.after (.insert d) = c' := by
  rw [after, Store.orUnchanged_of_ok (by rw [h]; rfl)]

theorem after_insert_of_error (h : c.insert d = .error e) : c.after (.insert d) = c := by
  rw [after, Store.orUnchanged_of_error (by rw [h]; rfl)]

theorem after_updateFirst_of_ok {result : UpdateResult} (h : c.updateFirst f u = .ok (result, c')) :
    c.after (.updateFirst f u) = c' := by
  rw [after, Store.orUnchanged_of_ok h]

theorem after_updateFirst_of_error (h : c.updateFirst f u = .error e) :
    c.after (.updateFirst f u) = c := by
  rw [after, Store.orUnchanged_of_error h]

theorem after_findAndModify_of_ok {result : Option Document}
    (h : c.findAndModify f u how = .ok (result, c')) : c.after (.findAndModify f u how) = c' := by
  rw [after, Store.orUnchanged_of_ok h]

theorem after_findAndModify_of_error (h : c.findAndModify f u how = .error e) :
    c.after (.findAndModify f u how) = c := by
  rw [after, Store.orUnchanged_of_error h]

/-- An upsert inserts what the update creates. -/
theorem findAndModify_upsert (hnone : c.first? f = none) (hup : how.upsert = true)
    (hcreate : u.create f = .ok d) : c.findAndModify f u how =
      (c.insert d).map ((if how.returnNew then some d else none), ·) := by
  rw [findAndModify, hnone]
  simp only [hup, if_true, hcreate, Except.ok_bind]
  cases c.insert d <;> rfl

/-- An upsert fails where the update cannot create a document. -/
theorem findAndModify_uncreated (hnone : c.first? f = none) (hup : how.upsert = true)
    (hcreate : u.create f = .error e) : c.findAndModify f u how = .error e := by
  rw [findAndModify, hnone]
  simp only [hup, if_true, hcreate]
  rfl

theorem after_upsert (hnone : c.first? f = none) (hup : how.upsert = true)
    (hcreate : u.create f = .ok d) : c.after (.findAndModify f u how) = c.after (.insert d) := by
  have hmodify := findAndModify_upsert hnone hup hcreate
  cases h : c.insert d with
  | error e =>
    rw [h] at hmodify
    rw [after_findAndModify_of_error hmodify, after_insert_of_error h]
  | ok c' =>
    rw [h] at hmodify
    rw [after_findAndModify_of_ok hmodify, after_insert_of_ok h]

/-! ## One call -/

/-- What a call does to a collection. -/
inductive Went (c : Collection) : List Document → Collection → Prop
  | same : Went c [] c
  /-- The first match is replaced by what the update makes of it. -/
  | replaced {i : Nat} {before after : Document} (here : c.documents[i]? = some before)
      (keyed : after.get? idField = before.get? idField) : Went c [] (c.replaceAt i before after)
  /-- Documents are added at the end, each of them a change. -/
  | added {ds : List Document} {c' : Collection} (documents : c'.documents = c.documents ++ ds)
      (revision : c'.revision = c.revision + ds.length) : Went c ds c'

theorem went_updateFirst (c : Collection) (f : Filter) (u : Update) :
    Went c [] (c.after (.updateFirst f u)) := by
  cases h : c.updateFirst f u with
  | error e =>
    rw [after_updateFirst_of_error h]
    exact .same
  | ok answer =>
    rw [after_updateFirst_of_ok h]
    obtain ⟨-, -, hsame⟩ | ⟨i, before, after, hfirst, happly, -, hreplaced⟩ := updateFirst_eq_ok h
    · rw [hsame]
      exact .same
    · rw [hreplaced]
      exact .replaced (first?_eq_some hfirst).1 (Update.get?_id_of_apply happly)

theorem went_insert (c : Collection) (d : Document) :
    Went c (c.admitted d) (c.after (.insert d)) := by
  rw [admitted]
  cases h : c.insert d with
  | error e =>
    rw [after_insert_of_error h]
    exact .same
  | ok c' =>
    rw [after_insert_of_ok h]
    obtain ⟨key, -, -, rfl⟩ := insert_eq_ok h
    exact .added rfl rfl

theorem went_insertMany (c : Collection) (ds : List Document) :
    Went c (c.inserted (.insertMany ds)) (c.after (.insertMany ds)) := by
  rw [inserted]
  obtain ⟨hall, hdocuments, hrevision⟩ | ⟨k, source, hfailed, hk, hdocuments, hrevision⟩ :=
    c.insertMany_cases ds
  · rw [hall]
    exact .added hdocuments hrevision
  · rw [hfailed]
    refine .added hdocuments ?_
    rwa [List.length_take_of_le (Nat.le_of_lt hk)]

theorem went_findAndModify (c : Collection) (f : Filter) (u : Update) (how : FindAndModify) :
    Went c (c.inserted (.findAndModify f u how)) (c.after (.findAndModify f u how)) := by
  rw [inserted]
  cases hfirst : c.first? f with
  | some found =>
    obtain ⟨i, before⟩ := found
    cases happly : u.apply before with
    | error e =>
      rw [after_findAndModify_of_error (by rw [findAndModify, hfirst]; simp only [happly]; rfl)]
      exact .same
    | ok after =>
      rw [after_findAndModify_of_ok (by rw [findAndModify, hfirst]; simp only [happly]; rfl)]
      exact .replaced (first?_eq_some hfirst).1 (Update.get?_id_of_apply happly)
  | none =>
    cases hup : how.upsert with
    | false =>
      rw [after_findAndModify_of_ok (by rw [findAndModify, hfirst]; simp only [hup]; rfl)]
      exact .same
    | true =>
      cases hcreate : u.create f with
      | error e =>
        rw [after_findAndModify_of_error (findAndModify_uncreated hfirst hup hcreate)]
        exact .same
      | ok d =>
        rw [after_upsert hfirst hup hcreate]
        exact c.went_insert d

/-- A call replaces a document by one with its key, or adds documents at the end. -/
theorem went (c : Collection) (call : Call) : Went c (c.inserted call) (c.after call) := by
  cases call with
  | insert d => exact went_insert c d
  | insertMany ds => exact went_insertMany c ds
  | updateFirst f u => exact went_updateFirst c f u
  | findAndModify f u how => exact went_findAndModify c f u how

theorem Went.ids_eq {ds : List Document} {c' : Collection} (h : Went c ds c') :
    ids c'.documents = ids c.documents ++ ids ds := by
  cases h with
  | same => exact (List.append_nil _).symm
  | replaced here keyed => exact (map_set_of_eq here keyed).trans (List.append_nil _).symm
  | added documents => rw [documents, ids, List.map_append]; rfl

theorem Reachable.after (h : c.Reachable) (call : Call) : (c.after call).Reachable := by
  cases call with
  | insert d =>
    cases hop : c.insert d with
    | error e => rwa [after_insert_of_error hop]
    | ok c' =>
      rw [after_insert_of_ok hop]
      exact h.insert hop
  | insertMany ds => exact h.insertMany ds
  | updateFirst f u =>
    cases hop : c.updateFirst f u with
    | error e => rwa [after_updateFirst_of_error hop]
    | ok answer =>
      rw [after_updateFirst_of_ok hop]
      exact h.updateFirst hop
  | findAndModify f u how =>
    cases hop : c.findAndModify f u how with
    | error e => rwa [after_findAndModify_of_error hop]
    | ok answer =>
      rw [after_findAndModify_of_ok hop]
      exact h.findAndModify hop

/-! ## Calls one after the other -/

theorem Reachable.along (h : c.Reachable) (calls : List Call) : (c.along calls).Reachable := by
  induction calls generalizing c with
  | nil => exact h
  | cons call calls ih => exact ih (h.after call)

/-- The primary keys are those that were there and then those that were inserted, in that order. -/
theorem ids_along (c : Collection) (calls : List Call) :
    ids (c.along calls).documents = ids c.documents ++ ids (c.insertedAlong calls) := by
  induction calls generalizing c with
  | nil => exact (List.append_nil _).symm
  | cons call calls ih =>
    calc ids ((c.after call).along calls).documents
        = ids (c.after call).documents ++ ids ((c.after call).insertedAlong calls) := ih _
      _ = ids c.documents ++ (ids (c.inserted call) ++ ids ((c.after call).insertedAlong calls)) := by
          rw [(c.went call).ids_eq, List.append_assoc]
      _ = ids c.documents ++ ids (c.insertedAlong (call :: calls)) := by
          rw [insertedAlong, ids, ids, ids, ids, List.map_append]

/-! ## What the keys say -/

/-- The key texts are those of the documents, each of one document only, and whatever is asked of the
documents can be asked of their keys. -/
structure Consistent (c : Collection) : Prop where
  /-- Every document has a primary key. -/
  identified : ∀ d ∈ c.documents, ∃ id, d.get? idField = some id
  /-- The key texts are those of the documents. -/
  keys : ∀ key, key ∈ c.keys ↔ ∃ d ∈ c.documents, d.key? = some key
  /-- No two documents have the same key text. -/
  apart : ∀ (i j : Nat) (d e : Document), c.documents[i]? = some d → c.documents[j]? = some e →
    d.key? = e.key? → i = j
  /-- The matching documents are found, all of them and in their order. -/
  found : ∀ f : Filter, (c.find f).Sublist c.documents ∧
    ∀ d, d ∈ c.find f ↔ d ∈ c.documents ∧ f.selects d = true
  /-- The documents make up the collection again. -/
  rebuilt : ∀ name, ofDocuments name c.documents = .ok { c with name, revision := 0 }

theorem WellFormed.consistent (h : c.WellFormed) : c.Consistent where
  identified _ := h.exists_id
  keys key := by
    have hmem : key ∈ c.keys ↔ some key ∈ c.documents.map Document.key? := by simp [h.keys]
    rw [hmem, List.mem_map]
  apart i j d e hi hj hkey := h.index_eq hi hj hkey
  found f := ⟨List.filter_sublist, fun d => List.mem_filter⟩
  rebuilt name := h.ofDocuments name

/-- Whatever calls are made, also calls that fail, a collection stays consistent, no document changes
its primary key or its place, and documents are only added at the end. -/
theorem consistent_along (h : c.Reachable) (calls : List Call) :
    (c.along calls).Consistent ∧
      ids (c.along calls).documents = ids (c.documents ++ c.insertedAlong calls) := by
  constructor
  · exact (h.along calls).wellFormed.consistent
  · rw [ids_along, ids, ids, ids, List.map_append]

/-- A document of a key and nothing else. -/
def keyed (id : String) : Document := .ofList [(idField, .string id)]

/-- An insertion, one that fails, a batch that stops at a key that is there, an update that fails, and
an upsert. -/
def trial : List Call :=
  [.insert (keyed "a"), .insert .empty, .insertMany [keyed "b", keyed "a", keyed "c"],
    .updateFirst (.byId (.string "b")) (Update.empty.andSet idField (.string "d")),
    .findAndModify (.byId (.string "e")) (Update.empty.andInc "count" 1) ⟨true, true⟩]

theorem consistent_along_of_trial :
    (empty "pages").Reachable ∧ ((empty "pages").along trial).Consistent ∧
      ids ((empty "pages").along trial).documents =
        [some (.string "a"), some (.string "b"), some (.string "e")] := by
  obtain ⟨hconsistent, hids⟩ := consistent_along (.empty "pages") trial
  refine ⟨.empty "pages", hconsistent, hids.trans ?_⟩
  rfl

end StepLedger.Collection

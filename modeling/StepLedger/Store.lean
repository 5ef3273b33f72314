import StepLedger.Archive
import StepLedger.Request

/-!
# Stores

A `Store` is a catalogue of collections by name. It lives in memory only, or keeps an archive: then
a change is written to the archive before it takes effect, and an operation that changed nothing
writes nothing. `Store.answer` serves one request, whole and at once; a closed store refuses all.
-/

namespace StepLedger

/-- A catalogue of collections. -/
structure Store where
  /-- The collections by ascending name. -/
  collections : List (String × Collection)
  /-- Where the collections are kept, unless in memory only. -/
  archive : Option Archive
  closed : Bool

namespace Store

/-! ## Opening and closing -/

/-- The empty store that is kept in memory only. -/
def inMemory : Store := ⟨[], none, false⟩

/-- The store of the collections in an archive. -/
def ofArchive (archive : Archive) : Except StoreError Store := do
  let collections ← archive.loadAll
  return ⟨Entries.ofList (collections.map fun c => (c.name, c)), some archive, false⟩

/-- Refuse every later request. -/
def close (s : Store) : Store := { s with closed := true }

/-- The disk on which the store is kept; `disk` if it is in memory only. -/
def diskOr (s : Store) (disk : Disk) : Disk := (s.archive.map (·.disk)).getD disk

/-! ## The catalogue -/

/-- The names of the collections, ascending. -/
def names (s : Store) : List String := s.collections.map (·.1)

/-- The collection with a name. -/
def collection? (s : Store) (name : String) : Option Collection := Entries.find? name s.collections

/-- Put a collection into the catalogue, in place of the one that has its name. -/
def put (s : Store) (name : String) (c : Collection) : Store :=
  { s with collections := Entries.insert name c s.collections }

/-- Characters that the name of a collection may have. -/
def isNameChar (c : Char) : Bool := c.isAlphanum || c = '_' || c = '-'

/-- Whether a collection may have a name. -/
def isName (name : String) : Bool := !name.isEmpty && name.toList.all isNameChar

/-- Refuse what a closed store refuses and a name that no collection may have. -/
def check (s : Store) (name : String) : Except StoreError Unit := do
  if s.closed then throw (.storeUnavailable .closed)
  if !isName name then throw (.invalidArgument (.collectionName name))

/-! ## Changing a collection -/

/-- Let the outcome of an operation on the collection `before` take effect. If the collection has to
be written to an archive and cannot be, the outcome is void. -/
def commit {α : Type} (s : Store) (before : Collection)
    (outcome : Except StoreError α × Collection) : Except StoreError α × Store :=
  match s.archive with
  | none => (outcome.1, s.put before.name outcome.2)
  | some archive =>
    if outcome.2.revision = before.revision then (outcome.1, s)
    else
      match archive.save outcome.2 with
      | (.ok (), archive) =>
        (outcome.1, { s.put before.name outcome.2 with archive := some archive })
      | (.error e, archive) => (.error e, { s with archive := some archive })

/-- Run an operation on the collection with a name. If there is none, it is created first where
`create` holds; otherwise the answer is `absent`. -/
def mutate {α : Type} (s : Store) (name : String) (create : Bool) (absent : α)
    (operation : Collection → Except StoreError α × Collection) : Except StoreError α × Store :=
  match s.check name with
  | .error e => (.error e, s)
  | .ok () =>
    match s.collection? name with
    | some c => s.commit c (operation c)
    | none =>
      if create then
        let c := Collection.empty name
        (s.put name c).commit c (operation c)
      else (.ok absent, s)

/-- An operation that changes nothing when it fails, with the collection after it. -/
def orUnchanged {α : Type} (operation : Collection → Except StoreError (α × Collection))
    (c : Collection) : Except StoreError α × Collection :=
  match operation c with
  | .ok (a, c) => (.ok a, c)
  | .error e => (.error e, c)

/-- Read from the collection with a name; `absent` if there is none. -/
def read {α : Type} (s : Store) (name : String) (absent : α) (view : Collection → α) :
    Except StoreError α × Store :=
  match s.check name with
  | .error e => (.error e, s)
  | .ok () => (.ok (((s.collection? name).map view).getD absent), s)

/-! ## Requests -/

/-- Insert one document. -/
def insertOne (s : Store) (name : String) (d : Document) : Except StoreError Unit × Store :=
  s.mutate name true () (orUnchanged fun c => (c.insert d).map ((), ·))

/-- Insert documents until one fails; to insert none asks nothing of the store. -/
def insertMany (s : Store) (name : String) (ds : List Document) : Except StoreError Nat × Store :=
  if ds.isEmpty then (.ok 0, s) else s.mutate name true 0 (·.insertMany ds)

/-- The matching documents. -/
def find (s : Store) (name : String) (f : Filter) : Except StoreError (List Document) × Store :=
  s.read name [] (·.find f)

/-- How many documents match. -/
def count (s : Store) (name : String) (f : Filter) : Except StoreError Nat × Store :=
  s.read name 0 (·.count f)

/-- Update the first match. -/
def updateFirst (s : Store) (name : String) (f : Filter) (u : Update) :
    Except StoreError UpdateResult × Store :=
  if u.isEmpty then (.error (.invalidArgument .emptyUpdate), s)
  else s.mutate name false ⟨0, 0⟩ (orUnchanged (·.updateFirst f u))

/-- Update the first match and answer with it. -/
def findAndModify (s : Store) (name : String) (f : Filter) (u : Update) (how : FindAndModify) :
    Except StoreError (Option Document) × Store :=
  if u.isEmpty then (.error (.invalidArgument .emptyUpdate), s)
  else s.mutate name how.upsert none (orUnchanged (·.findAndModify f u how))

/-- Remove a collection from the catalogue, and then its file. -/
def drop (s : Store) (name : String) : Except StoreError Unit × Store :=
  match s.check name with
  | .error e => (.error e, s)
  | .ok () =>
    let s := { s with collections := Entries.erase name s.collections }
    match s.archive with
    | none => (.ok (), s)
    | some archive =>
      let (result, archive) := archive.delete name
      (result, { s with archive := some archive })

/-- Answer a request. -/
def answer : Server Store
  | s, .insertOne name d => s.insertOne name d
  | s, .insertMany name ds => s.insertMany name ds
  | s, .find name f => s.find name f
  | s, .count name f => s.count name f
  | s, .updateFirst name f u => s.updateFirst name f u
  | s, .findAndModify name f u how => s.findAndModify name f u how
  | s, .dropCollection name => s.drop name

end Store

end StepLedger

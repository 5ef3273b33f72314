import StepLedger.Document.Update

/-!
# Collections

A `Collection` holds documents in the order in which they were inserted, no two with the same key
text. Its revision counts the changes, so that it tells whether an operation wrote anything. Every
operation gives its outcome together with the collection after it.
-/

namespace StepLedger

/-- What an update of the first match did. -/
structure UpdateResult where
  /-- How many documents the filter selected, at most one. -/
  matched : Nat
  /-- How many of them changed. -/
  modified : Nat
deriving DecidableEq, Repr

/-- How `Collection.findAndModify` answers and whether it may create a document. -/
structure FindAndModify where
  /-- Answer with the document after the update, not the one before it. -/
  returnNew : Bool
  /-- Create the document if nothing matches. -/
  upsert : Bool
deriving DecidableEq, Repr

/-- The documents of one collection. -/
structure Collection where
  name : String
  /-- In the order of insertion. -/
  documents : List Document
  /-- The key texts of the documents. -/
  keys : List String
  /-- How often the documents have changed. -/
  revision : Nat

namespace Collection

/-- The collection without documents. -/
def empty (name : String) : Collection := ⟨name, [], [], 0⟩

/-- Insert a document that has a key and one that is not there yet. -/
def insert (c : Collection) (d : Document) : Except StoreError Collection :=
  match d.key? with
  | none => .error (.invalidArgument (.noKey c.name))
  | some key =>
    if c.keys.contains key then .error (.duplicateKey c.name key)
    else .ok { c with
      documents := c.documents ++ [d]
      keys := c.keys ++ [key]
      revision := c.revision + 1 }

/-- Insert documents in order until one fails; what was inserted before it stays. -/
def insertMany (c : Collection) (ds : List Document) : Except StoreError Nat × Collection :=
  go c 0 ds
where
  /-- Go on after `inserted` documents. -/
  go (c : Collection) (inserted : Nat) : List Document → Except StoreError Nat × Collection
    | [] => (.ok inserted, c)
    | d :: ds =>
      match c.insert d with
      | .ok c => go c (inserted + 1) ds
      | .error e => (.error (.bulkWrite inserted e), c)

/-- The collection of documents read from somewhere; reading is no change. -/
def ofDocuments (name : String) (ds : List Document) : Except StoreError Collection := do
  let c ← ds.foldlM insert (empty name)
  return { c with revision := 0 }

/-- The matching documents, in order. -/
def find (c : Collection) (f : Filter) : List Document := c.documents.filter f.selects

/-- How many documents match. -/
def count (c : Collection) (f : Filter) : Nat := c.documents.countP f.selects

/-- The place of the first match. A filter on a key that no document has is not tried. -/
def position? (c : Collection) (f : Filter) : Option Nat :=
  match f.idValue? with
  | some id =>
    if c.keys.contains (Document.keyText id.value) then c.documents.findIdx? f.selects else none
  | none => c.documents.findIdx? f.selects

/-- The collection with the document at a place replaced; a change counts if the values differ. -/
def replaceAt (c : Collection) (index : Nat) (before after : Document) : Collection :=
  { c with
    documents := c.documents.set index after
    revision := if after.same before then c.revision else c.revision + 1 }

/-- The first match with its place. -/
def first? (c : Collection) (f : Filter) : Option (Nat × Document) :=
  (c.position? f).bind fun index => (c.documents[index]?).map fun d => (index, d)

/-- Apply an update to the first match. -/
def updateFirst (c : Collection) (f : Filter) (u : Update) :
    Except StoreError (UpdateResult × Collection) :=
  match c.first? f with
  | none => .ok (⟨0, 0⟩, c)
  | some (index, before) => do
    let after ← u.apply before
    return (⟨1, if after.same before then 0 else 1⟩, c.replaceAt index before after)

/-- Apply an update to the first match and answer with the document before or after it. If nothing
matches, an upsert creates the document and the answer is that document or nothing. -/
def findAndModify (c : Collection) (f : Filter) (u : Update) (how : FindAndModify) :
    Except StoreError (Option Document × Collection) :=
  match c.first? f with
  | some (index, before) => do
    let after ← u.apply before
    return (some (if how.returnNew then after else before), c.replaceAt index before after)
  | none =>
    if how.upsert then do
      let created ← u.create f
      let c ← c.insert created
      return (if how.returnNew then some created else none, c)
    else .ok (none, c)

end Collection

end StepLedger

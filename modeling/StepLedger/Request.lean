import StepLedger.Collection

/-!
# Requests

A `Request` is what a client may ask of a store of documents, and `Request.Answer` is the type of
the answer to it. A `Server` answers requests, one at a time and each as a whole.
-/

namespace StepLedger

/-- What a client may ask of a store. -/
inductive Request where
  /-- Insert one document, whose key must not be there yet. -/
  | insertOne (collection : String) (document : Document)
  /-- Insert documents in order until one fails. -/
  | insertMany (collection : String) (documents : List Document)
  /-- The matching documents in the order of insertion. -/
  | find (collection : String) (filter : Filter)
  /-- How many documents match. -/
  | count (collection : String) (filter : Filter)
  /-- Update the first match. -/
  | updateFirst (collection : String) (filter : Filter) (update : Update)
  /-- Update the first match and answer with it. -/
  | findAndModify (collection : String) (filter : Filter) (update : Update) (how : FindAndModify)
  /-- Remove a collection with all it holds. -/
  | dropCollection (collection : String)

namespace Request

/-- What the answer to a request is. -/
def Answer : Request → Type
  | .insertOne .. => Unit
  | .insertMany .. => Nat
  | .find .. => List Document
  | .count .. => Nat
  | .updateFirst .. => UpdateResult
  | .findAndModify .. => Option Document
  | .dropCollection .. => Unit

/-- The collection that a request is about. -/
def collection : Request → String
  | .insertOne name _ | .insertMany name _ | .find name _ | .count name _
  | .updateFirst name _ _ | .findAndModify name _ _ _ | .dropCollection name => name

end Request

/-- Something in a state of type `σ` that answers requests. -/
abbrev Server (σ : Type) := σ → (request : Request) → Except StoreError request.Answer × σ

end StepLedger

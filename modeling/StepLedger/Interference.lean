import StepLedger.Program
import StepLedger.Store

/-!
# Interference

A store with other clients at work, and with faults: an `Interference` answers requests like the
store it holds, but after each request that reads documents a rival may act, readers may get every
document twice, and the store may close after a number of requests. It shows what a client sees when
its requests are not alone.
-/

namespace StepLedger

/-- What another client asks between two requests. -/
inductive Rival where
  | update (collection : String) (filter : Filter) (update : Update)
  | drop (collection : String)

/-- The request of a rival on a store. -/
def Rival.act (rival : Rival) (s : Store) : Except StoreError Unit × Store :=
  match rival with
  | .update name f u =>
    let (result, s) := s.updateFirst name f u
    (result.map fun _ => (), s)
  | .drop name => s.drop name

/-- A store, with what is to happen to its clients. -/
structure Interference where
  store : Store
  /-- Whether readers get every document twice. -/
  duplicate : Bool
  /-- Who acts after each of the next requests that read documents. -/
  rivals : List (Option Rival)
  /-- After how many more requests the store closes. -/
  closeAfter : Option Nat

namespace Interference

/-- The store as it is, with nobody else at work. -/
def alone (store : Store) : Interference := ⟨store, false, [], none⟩

/-- Before a request: close the store if its time has come. -/
def tick (i : Interference) : Interference :=
  match i.closeAfter with
  | none => i
  | some 0 => { i with store := i.store.close }
  | some (n + 1) => { i with closeAfter := some n }

/-- After a request that read documents: let the next rival act. -/
def rivalTurn (i : Interference) : Except StoreError Unit × Interference :=
  match i.rivals with
  | [] => (.ok (), i)
  | none :: rivals => (.ok (), { i with rivals })
  | some rival :: rivals =>
    let (result, store) := rival.act i.store
    (result, { i with rivals, store })

/-- Read documents and let the next rival act. -/
def find (i : Interference) (name : String) (f : Filter) :
    Except StoreError (List Document) × Interference :=
  match i.store.find name f with
  | (.error e, store) => (.error e, { i with store })
  | (.ok found, store) =>
    let (result, i) := ({ i with store } : Interference).rivalTurn
    (result.map fun () => if i.duplicate then found ++ found else found, i)

/-- Answer a request. -/
def answer : Server Interference
  | i, .find name f => i.tick.find name f
  | i, request =>
    let i := i.tick
    let (result, store) := i.store.answer request
    (result, { i with store })

end Interference

end StepLedger

import StepLedger.Proofs.Program
import StepLedger.Proofs.Store.Failure

/-!
# Closed stores

A closed store stays as it is, and is unavailable to every request but those that say nothing
(`Request.SaysNothing`): they are answered before anybody looks at the store
(`Store.closed_for_good`).
-/

namespace StepLedger

/-- The request is to insert no documents, or to apply an update without any operator. -/
def Request.SaysNothing : Request → Prop
  | .insertMany _ ds => ds = []
  | .updateFirst _ _ u | .findAndModify _ _ u _ => u.isEmpty = true
  | _ => False

namespace Store

variable {s : Store} {name : String} {request : Request}

/-! ## One request -/

section Closed

variable (h : s.closed = true)
include h

theorem check_of_closed (name : String) : s.check name = .error (.storeUnavailable .closed) := by
  rw [check, h]
  rfl

/-- Nothing is edited, also in a collection that may not have its name. -/
theorem mutate_of_closed {α : Type} (name : String) (create : Bool) (absent : α)
    (operation : Collection → Except StoreError α × Collection) :
    s.mutate name create absent operation = (.error (.storeUnavailable .closed), s) := by
  rw [mutate, check_of_closed h]

theorem read_of_closed {α : Type} (name : String) (absent : α) (look : Collection → α) :
    s.read name absent look = (.error (.storeUnavailable .closed), s) := by
  rw [read, check_of_closed h]

theorem drop_of_closed (name : String) :
    s.drop name = (.error (.storeUnavailable .closed), s) := by
  rw [drop, check_of_closed h]

/-- A closed store is unavailable to a request that says something, and stays as it is. -/
theorem answer_of_closed (hspoken : ¬ request.SaysNothing) :
    s.answer request = (.error (.storeUnavailable .closed), s) := by
  cases request with
  | insertOne name d => exact mutate_of_closed h name _ _ _
  | insertMany name ds =>
    have hds : ¬ ds.isEmpty = true := by simpa [Request.SaysNothing] using hspoken
    exact (if_neg hds).trans (mutate_of_closed h name _ _ _)
  | find name f => exact read_of_closed h name _ _
  | count name f => exact read_of_closed h name _ _
  | updateFirst name f u => exact (if_neg hspoken).trans (mutate_of_closed h name _ _ _)
  | findAndModify name f u how => exact (if_neg hspoken).trans (mutate_of_closed h name _ _ _)
  | dropCollection name => exact drop_of_closed h name

/-- A program that begins with a request that says something fails there. -/
theorem run_ask_of_closed {α : Type} {next : request.Answer → Program α}
    (hspoken : ¬ request.SaysNothing) :
    (Program.ask request next).run Store.answer s = (.failed (.storeUnavailable .closed), s) :=
  Program.run_ask_error (answer_of_closed h hspoken)

end Closed

theorem updateFirst_of_isEmpty (s : Store) (name : String) (f : Filter) {u : Update}
    (hu : u.isEmpty = true) :
    s.updateFirst name f u = (.error (.invalidArgument .emptyUpdate), s) := if_pos hu

theorem findAndModify_of_isEmpty (s : Store) (name : String) (f : Filter) {u : Update}
    (how : FindAndModify) (hu : u.isEmpty = true) :
    s.findAndModify name f u how = (.error (.invalidArgument .emptyUpdate), s) := if_pos hu

/-- A request that says nothing changes nothing. -/
theorem snd_answer_of_saysNothing (s : Store) (hempty : request.SaysNothing) :
    (s.answer request).2 = s := by
  cases request with
  | insertMany name ds => rw [show ds = [] from hempty]; rfl
  | updateFirst name f u => exact congrArg Prod.snd (updateFirst_of_isEmpty s name f hempty)
  | findAndModify name f u how =>
    exact congrArg Prod.snd (findAndModify_of_isEmpty s name f how hempty)
  | _ => exact hempty.elim

/-- No request changes a closed store. -/
theorem snd_answer_of_closed (h : s.closed = true) (request : Request) :
    (s.answer request).2 = s := by
  by_cases hempty : request.SaysNothing
  · exact snd_answer_of_saysNothing s hempty
  · rw [answer_of_closed h hempty]

/-! ## Any number of requests -/

/-- The store after requests, one after the other. -/
def after (s : Store) (requests : List Request) : Store :=
  requests.foldl (fun s request => (s.answer request).2) s

theorem after_of_closed (h : s.closed = true) (requests : List Request) :
    s.after requests = s := by
  induction requests with
  | nil => rfl
  | cons request requests ih =>
    rw [after, List.foldl_cons, snd_answer_of_closed h]
    exact ih

/-- Whatever requests come after a store was closed, its documents and files stay as they were, and it
is unavailable to the next request, whichever collection that names. Only a request that says nothing
is answered as an open store would answer it. -/
theorem closed_for_good (s : Store) (requests : List Request) :
    let later := s.close.after requests
    (later.collections = s.collections ∧ later.archive = s.archive) ∧
    (∀ request, ¬ request.SaysNothing →
      later.answer request = (.error (.storeUnavailable .closed), later)) ∧
    (∀ name f, (Program.findOne name f).run Store.answer later =
      (.failed (.storeUnavailable .closed), later)) ∧
    (∀ name, later.insertMany name [] = (.ok 0, later)) ∧
    ∀ name f u how, u.isEmpty = true →
      later.updateFirst name f u = (.error (.invalidArgument .emptyUpdate), later) ∧
      later.findAndModify name f u how = (.error (.invalidArgument .emptyUpdate), later) := by
  intro later
  have hsame : later = s.close := after_of_closed rfl requests
  have hclosed : later.closed = true := by rw [hsame]; rfl
  refine ⟨?_, fun request hspoken => answer_of_closed hclosed hspoken, fun name f => ?_, fun name => rfl,
    fun name f u how hu => ⟨?_, ?_⟩⟩
  · rw [hsame]
    exact ⟨rfl, rfl⟩
  · exact run_ask_of_closed hclosed (show ¬ Request.SaysNothing (.find name f) from id)
  · exact updateFirst_of_isEmpty later name f hu
  · exact findAndModify_of_isEmpty later name f how hu

/-- A page that was stored before closing cannot be read or dropped, and is still there. -/
theorem closed_for_good_of_page :
    let later := ((cabinet none).answer (.insertOne "pages" .page)).2.close.after
      [.dropCollection "pages", .insertOne "../pages" .empty]
    (later.view "pages").documents = [.page] ∧
      later.answer (.find "pages" .all) = (.error (.storeUnavailable .closed), later) ∧
      later.updateFirst "pages" .all .empty = (.error (.invalidArgument .emptyUpdate), later) := by
  intro later
  obtain ⟨⟨hcollections, -⟩, hrefused, -, -, hempty⟩ :=
    closed_for_good ((cabinet none).answer (.insertOne "pages" .page)).2
      [.dropCollection "pages", .insertOne "../pages" .empty]
  refine ⟨?_, hrefused (.find "pages" .all) id, (hempty "pages" .all .empty ⟨false, false⟩ rfl).1⟩
  rw [view_congr hcollections]
  rfl

/-- A closed store has inserted what it was asked to, if that is nothing, and takes offence at an empty
update. -/
theorem empty_requests_pass_closing :
    (inMemory.close.answer (.insertMany "pages" [])).1 = .ok (0 : Nat) ∧
      inMemory.close.updateFirst "pages" .all .empty =
        (.error (.invalidArgument .emptyUpdate), inMemory.close) ∧
      inMemory.close.findAndModify "pages" .all .empty ⟨false, false⟩ =
        (.error (.invalidArgument .emptyUpdate), inMemory.close) :=
  ⟨rfl, rfl, rfl⟩

end Store

end StepLedger

import StepLedger.Proofs.Archive
import StepLedger.Proofs.Collection.WellFormed

/-!
# What a request does to a store

`Store.view` reads a collection by name and takes one that is not there for an empty one. `Served`
says all that a changing request can do to the collections seen so: it is refused and changes
nothing, or the operation's outcome is the answer and the collection after the operation is put in
place of the one before. A store that keeps an archive leaves the old collection where the revision
did not move.

What is said of all requests is said by the three cases of `Answered`: a request changes nothing,
edits the collection that it names by one of four operations (`Edits`), or drops it.
-/

namespace StepLedger.Store

/-- The collection with a name; the empty one if there is none. -/
def view (s : Store) (name : String) : Collection := (s.collection? name).getD (.empty name)

/-- Every collection is well formed and has the name under which it is catalogued. -/
def WellFormed (s : Store) : Prop :=
  ∀ name, (s.view name).WellFormed ∧ (s.view name).name = name

/-! ## The catalogue -/

theorem collection?_put (s : Store) (name other : String) (c : Collection) :
    (s.put name c).collection? other = if other = name then some c else s.collection? other := by
  unfold put collection?
  split
  · next h => subst h; exact Entries.find?_insert_self _ _ _
  · next h => exact Entries.find?_insert_ne h _ _

theorem view_put_self (s : Store) (name : String) (c : Collection) :
    (s.put name c).view name = c := by simp [view, collection?_put]

theorem view_put_ne (s : Store) {name other : String} (h : other ≠ name) (c : Collection) :
    (s.put name c).view other = s.view other := by simp [view, collection?_put, h]

/-- To create a collection changes nothing that is seen. -/
theorem view_put_empty {s : Store} {name : String} (h : s.collection? name = none)
    (other : String) : (s.put name (.empty name)).view other = s.view other := by
  by_cases ho : other = name
  · subst ho; rw [view_put_self]; simp [view, h]
  · exact view_put_ne s ho _

/-- What is kept where, and whether the store is closed, does not matter to what is seen. -/
theorem view_congr {s s' : Store} (h : s'.collections = s.collections) (name : String) :
    s'.view name = s.view name := by simp [view, collection?, h]

/-! ## Changing requests -/

/-- What an operation on the collection `name` does when a store carries it out. -/
inductive Served {α : Type} (s : Store) (name : String)
    (operation : Collection → Except StoreError α × Collection) : Except StoreError α × Store → Prop
  /-- The store is closed or has no place for the change, or no collection may have the name. -/
  | refused {e : StoreError} {s' : Store}
      (cause : e.IsOutage ∨ isName name = false)
      (same : ∀ other, s'.view other = s.view other) : Served s name operation (.error e, s')
  /-- The revision did not move and the collection after the operation was let go. -/
  | idle {result : Except StoreError α} {c : Collection} {s' : Store}
      (outcome : operation (s.view name) = (result, c))
      (still : c.revision = (s.view name).revision)
      (same : ∀ other, s'.view other = s.view other) : Served s name operation (result, s')
  | changed {result : Except StoreError α} {c : Collection} {s' : Store}
      (outcome : operation (s.view name) = (result, c)) (after : s'.view name = c)
      (others : ∀ other, other ≠ name → s'.view other = s.view other) :
      Served s name operation (result, s')

/-- Only what is seen of the store before matters. -/
theorem Served.of_view {α : Type} {s t : Store} {name : String}
    {operation : Collection → Except StoreError α × Collection} {outcome : Except StoreError α × Store}
    (h : Served t name operation outcome) (hview : ∀ other, t.view other = s.view other) :
    Served s name operation outcome := by
  cases h with
  | refused cause same => exact .refused cause fun other => (same other).trans (hview other)
  | idle outcome still same =>
    rw [hview name] at outcome still
    exact .idle outcome still fun other => (same other).trans (hview other)
  | changed outcome after others =>
    rw [hview name] at outcome
    exact .changed outcome after fun other hne => (others other hne).trans (hview other)

/-- What is true of every collection stays true if the operation keeps it true of the collection with
the name. -/
theorem Served.forall_view {P : String → Collection → Prop} {α : Type} {s : Store} {name : String}
    {operation : Collection → Except StoreError α × Collection} {outcome : Except StoreError α × Store}
    (h : Served s name operation outcome) (hs : ∀ other, P other (s.view other))
    (hop : ∀ c, P name c → P name (operation c).2) (other : String) :
    P other (outcome.2.view other) := by
  cases h with
  | refused _ same | idle _ _ same => exact (same other).symm ▸ hs other
  | changed outcome after others =>
    by_cases hne : other = name
    · subst hne
      have hafter := hop _ (hs other)
      rwa [outcome, ← after] at hafter
    · exact (others other hne).symm ▸ hs other

/-- Why the check before a request fails. -/
theorem check_eq_error {s : Store} {name : String} {e : StoreError} (h : s.check name = .error e) :
    e.kind = .storeUnavailable ∨ isName name = false := by
  unfold check at h
  cases hclosed : s.closed with
  | true =>
    rw [hclosed] at h
    cases h
    exact .inl rfl
  | false =>
    refine .inr ?_
    by_contra hname
    rw [Bool.not_eq_false] at hname
    rw [hclosed, hname] at h
    cases h

/-- What it means that an outcome takes effect. -/
theorem served_commit {α : Type} {s : Store} {name : String} {c : Collection}
    {operation : Collection → Except StoreError α × Collection} (hview : s.view name = c)
    (hname : c.name = name) : Served s name operation (s.commit c (operation c)) := by
  unfold commit
  cases harchive : s.archive with
  | none =>
    refine .changed (c := (operation c).2) (by rw [hview]) ?_ ?_
    · rw [hname, view_put_self]
    · intro other hne; rw [hname, view_put_ne s hne]
  | some archive =>
    dsimp only
    split
    · next hrev =>
      exact .idle (c := (operation c).2) (by rw [hview]) (by rw [hview, hrev]) fun _ => rfl
    · cases hsave : archive.save (operation c).2 with
      | mk saved archive' =>
        cases saved with
        | error e =>
          exact .refused (.inl (Archive.isOutage_of_save hsave)) fun other => view_congr rfl other
        | ok _ =>
          refine .changed (c := (operation c).2) (by rw [hview]) ?_ ?_
          · rw [hname]; exact view_put_self s name _
          · intro other hne; rw [hname]; exact view_put_ne s hne _

theorem served_mutate {α : Type} {s : Store} (hs : s.WellFormed) {name : String} {create : Bool}
    {absent : α} {operation : Collection → Except StoreError α × Collection}
    (habsent : create = false → operation (.empty name) = (.ok absent, .empty name)) :
    Served s name operation (s.mutate name create absent operation) := by
  unfold mutate
  cases hcheck : s.check name with
  | error e => exact .refused ((check_eq_error hcheck).imp_left .inl) fun _ => rfl
  | ok _ =>
    cases hc : s.collection? name with
    | some c => exact served_commit (by simp [view, hc]) (by simpa [view, hc] using (hs name).2)
    | none =>
      have hview : s.view name = .empty name := by simp [view, hc]
      cases hcreate : create with
      | false =>
        exact .idle (c := .empty name) (by rw [hview, habsent hcreate]) (by rw [hview])
          fun _ => rfl
      | true =>
        -- the collection is there before the operation, and is seen as before
        have hput := view_put_empty hc
        exact (served_commit ((hput name).trans hview) rfl).of_view hput

/-! ## The requests -/

/-- An operation that fails as a whole leaves the collection as it is. -/
theorem orUnchanged_of_error {α : Type} {operation : Collection → Except StoreError (α × Collection)}
    {c : Collection} {e : StoreError} (h : operation c = .error e) :
    orUnchanged operation c = (.error e, c) := by simp [orUnchanged, h]

theorem orUnchanged_of_ok {α : Type} {operation : Collection → Except StoreError (α × Collection)}
    {c c' : Collection} {a : α} (h : operation c = .ok (a, c')) :
    orUnchanged operation c = (.ok a, c') := by simp [orUnchanged, h]

/-- What holds of a collection, and of what the operation makes of it where it succeeds, holds
afterwards. -/
@[elab_as_elim]
theorem orUnchanged_induction {motive : Collection → Prop} {α : Type} {c : Collection}
    {operation : Collection → Except StoreError (α × Collection)} (hc : motive c)
    (hop : ∀ {a c'}, operation c = .ok (a, c') → motive c') : motive (orUnchanged operation c).2 := by
  cases h : operation c with
  | error e => rw [orUnchanged_of_error h]; exact hc
  | ok result => rw [orUnchanged_of_ok h]; exact hop h

/-- An update that is not empty is made to the collection with the name. -/
theorem updateFirst_eq_mutate (s : Store) (name : String) (f : Filter) {u : Update}
    (hu : u.isEmpty = false) : s.updateFirst name f u =
      s.mutate name false ⟨0, 0⟩ (orUnchanged (·.updateFirst f u)) :=
  if_neg (Bool.eq_false_iff.1 hu)

theorem findAndModify_eq_mutate (s : Store) (name : String) (f : Filter) {u : Update}
    (how : FindAndModify) (hu : u.isEmpty = false) : s.findAndModify name f u how =
      s.mutate name how.upsert none (orUnchanged (·.findAndModify f u how)) :=
  if_neg (Bool.eq_false_iff.1 hu)

section Requests

variable {s : Store} (hs : s.WellFormed) (name : String)
include hs

theorem served_insertOne (d : Document) :
    Served s name (orUnchanged fun c => (c.insert d).map ((), ·)) (s.insertOne name d) :=
  served_mutate hs fun h => by cases h

theorem served_insertMany {ds : List Document} (hds : ds ≠ []) :
    Served s name (·.insertMany ds) (s.insertMany name ds) := by
  rw [insertMany, if_neg (by simpa using hds)]
  exact served_mutate hs fun h => by cases h

theorem served_updateFirst (f : Filter) {u : Update} (hu : u.isEmpty = false) :
    Served s name (orUnchanged (·.updateFirst f u)) (s.updateFirst name f u) := by
  rw [updateFirst_eq_mutate s name f hu]
  exact served_mutate hs fun _ => orUnchanged_of_ok (Collection.updateFirst_empty name f u)

theorem served_findAndModify (f : Filter) {u : Update} (how : FindAndModify)
    (hu : u.isEmpty = false) :
    Served s name (orUnchanged (·.findAndModify f u how)) (s.findAndModify name f u how) := by
  rw [findAndModify_eq_mutate s name f how hu]
  exact served_mutate hs fun hup => orUnchanged_of_ok (Collection.findAndModify_empty name f u hup)

end Requests

theorem mutate_of_refused {s : Store} {name : String} {α : Type} {create : Bool} {absent : α}
    {operation : Collection → Except StoreError α × Collection} {e : StoreError}
    (h : s.check name = .error e) : s.mutate name create absent operation = (.error e, s) := by
  rw [mutate, h]

/-! ## Looking -/

theorem read_of_refused {s : Store} {name : String} {α : Type} {absent : α} {look : Collection → α}
    {e : StoreError} (h : s.check name = .error e) : s.read name absent look = (.error e, s) := by
  rw [read, h]

/-- What is admitted is read in the collection as it is seen. -/
theorem read_of_check {s : Store} {name : String} {α : Type} {absent : α} {look : Collection → α}
    (habsent : look (.empty name) = absent) (h : s.check name = .ok ()) :
    s.read name absent look = (.ok (look (s.view name)), s) := by
  unfold read
  rw [h]
  cases hc : s.collection? name with
  | none => simp [view, hc, habsent]
  | some c => simp [view, hc]

/-- Reading is refused, or answers from the collection as it is seen; nothing changes. -/
theorem read_eq {α : Type} (s : Store) (name : String) {absent : α} {look : Collection → α}
    (habsent : look (.empty name) = absent) :
    (∃ e, (e.kind = .storeUnavailable ∨ isName name = false) ∧
        s.read name absent look = (.error e, s)) ∨
      s.read name absent look = (.ok (look (s.view name)), s) := by
  cases hcheck : s.check name with
  | error e => exact .inl ⟨e, check_eq_error hcheck, read_of_refused hcheck⟩
  | ok _ => exact .inr (read_of_check habsent hcheck)

/-- A request to find documents is refused or answers with those that match. -/
theorem find_eq (s : Store) (name : String) (f : Filter) :
    (∃ e, (e.kind = .storeUnavailable ∨ isName name = false) ∧ s.find name f = (.error e, s)) ∨
      s.find name f = (.ok ((s.view name).find f), s) := read_eq s name rfl

/-- A request that is admitted finds the documents that match. -/
theorem find_of_check {s : Store} {name : String} (h : s.check name = .ok ()) (f : Filter) :
    s.find name f = (.ok ((s.view name).find f), s) := read_of_check rfl h

theorem count_eq (s : Store) (name : String) (f : Filter) :
    (∃ e, (e.kind = .storeUnavailable ∨ isName name = false) ∧ s.count name f = (.error e, s)) ∨
      s.count name f = (.ok ((s.view name).count f), s) := read_eq s name rfl

/-- A request that is admitted counts the documents that match. -/
theorem count_of_check {s : Store} {name : String} (h : s.check name = .ok ()) (f : Filter) :
    s.count name f = (.ok ((s.view name).count f), s) := read_of_check rfl h

/-- To look changes nothing. -/
theorem snd_find (s : Store) (name : String) (f : Filter) : (s.find name f).2 = s := by
  obtain ⟨e, -, h⟩ | h := find_eq s name f <;> rw [h]

theorem snd_count (s : Store) (name : String) (f : Filter) : (s.count name f).2 = s := by
  obtain ⟨e, -, h⟩ | h := count_eq s name f <;> rw [h]

/-! ## All requests -/

/-- Whether a request creates the collection that it names, if there is none. -/
def creates : Request → Bool
  | .insertOne .. => true
  | .insertMany _ ds => !ds.isEmpty
  | .findAndModify _ _ u how => how.upsert && !u.isEmpty
  | _ => false

/-- The request edits the collection that it names by an operation, and may `create` it for that. -/
inductive Edits : (request : Request) → (create : Bool) →
    (Collection → Except StoreError request.Answer × Collection) → Prop
  | insertOne (name : String) (d : Document) :
    Edits (.insertOne name d) true (orUnchanged fun c => (c.insert d).map ((), ·))
  | insertMany (name : String) {ds : List Document} (hds : ds ≠ []) :
    Edits (.insertMany name ds) true (·.insertMany ds)
  | updateFirst (name : String) (f : Filter) {u : Update} (hu : u.isEmpty = false) :
    Edits (.updateFirst name f u) false (orUnchanged (·.updateFirst f u))
  | findAndModify (name : String) (f : Filter) {u : Update} (how : FindAndModify)
    (hu : u.isEmpty = false) :
    Edits (.findAndModify name f u how) how.upsert (orUnchanged (·.findAndModify f u how))

/-- What the answer to a request is. -/
inductive Answered (s : Store) :
    (request : Request) → Except StoreError request.Answer × Store → Prop
  /-- The request only looks, or there is nothing to do for it. -/
  | idle {request : Request} {result : Except StoreError request.Answer}
      (plain : creates request = false)
      (cause : ∀ e, result = .error e → e.kind = .storeUnavailable ∨ e.kind = .invalidArgument) :
      Answered s request (result, s)
  | edited {request : Request} {create : Bool} {absent : request.Answer}
      {operation : Collection → Except StoreError request.Answer × Collection}
      (edits : Edits request create operation)
      (blank : create = false → ∀ name, operation (.empty name) = (.ok absent, .empty name)) :
      Answered s request (s.mutate request.collection create absent operation)
  | dropped (name : String) : Answered s (.dropCollection name) (s.drop name)

theorem Edits.creates_eq {request : Request} {create : Bool}
    {operation : Collection → Except StoreError request.Answer × Collection}
    (h : Edits request create operation) : creates request = create := by
  cases h with
  | insertOne => rfl
  | insertMany _ hds => simp [creates, hds]
  | updateFirst => rfl
  | findAndModify _ _ _ hu => simp [creates, hu]

theorem kind_of_check {s : Store} {name : String} {e : StoreError} (h : s.check name = .error e) :
    e.kind = .storeUnavailable ∨ e.kind = .invalidArgument := by
  rw [check] at h
  cases hclosed : s.closed with
  | true =>
    rw [hclosed] at h
    cases h
    exact .inl rfl
  | false =>
    rw [hclosed] at h
    cases hname : isName name with
    | true => rw [hname] at h; cases h
    | false =>
      rw [hname] at h
      cases h
      exact .inr rfl

/-- To look changes nothing and fails only where the check does. -/
theorem read_cases {α : Type} (s : Store) (name : String) (absent : α) (look : Collection → α) :
    ∃ result, s.read name absent look = (result, s) ∧
      ∀ e, result = .error e → e.kind = .storeUnavailable ∨ e.kind = .invalidArgument := by
  rw [read]
  cases hcheck : s.check name with
  | error e => exact ⟨_, rfl, fun _ he => kind_of_check (Except.error.inj he ▸ hcheck)⟩
  | ok _ => exact ⟨_, rfl, nofun⟩

/-- Every request changes nothing, edits a collection, or drops one. -/
theorem answered (s : Store) (request : Request) : Answered s request (s.answer request) := by
  have saysNothing : ∀ e, (.error (.invalidArgument .emptyUpdate) :
      Except StoreError request.Answer) = .error e →
        e.kind = .storeUnavailable ∨ e.kind = .invalidArgument :=
    fun e he => .inr (Except.error.inj he ▸ rfl)
  cases request with
  | insertOne name d => exact .edited (.insertOne name d) nofun
  | insertMany name ds =>
    by_cases hds : ds = []
    · subst hds
      exact .idle rfl nofun
    · rw [answer, insertMany, if_neg (by simpa using hds)]
      exact .edited (.insertMany name hds) nofun
  | find name f =>
    obtain ⟨result, h, cause⟩ := s.read_cases name [] (·.find f)
    rw [answer, find, h]
    exact .idle rfl cause
  | count name f =>
    obtain ⟨result, h, cause⟩ := s.read_cases name 0 (·.count f)
    rw [answer, count, h]
    exact .idle rfl cause
  | updateFirst name f u =>
    rw [answer, updateFirst]
    cases hu : u.isEmpty with
    | true => exact .idle rfl saysNothing
    | false =>
      exact .edited (.updateFirst name f hu) fun _ name =>
        orUnchanged_of_ok (Collection.updateFirst_empty name f u)
  | findAndModify name f u how =>
    rw [answer, findAndModify]
    cases hu : u.isEmpty with
    | true => exact .idle (by simp [creates, hu]) saysNothing
    | false =>
      exact .edited (.findAndModify name f how hu) fun hup name =>
        orUnchanged_of_ok (Collection.findAndModify_empty name f u hup)
  | dropCollection name => exact .dropped name

/-- Whether a request only looks at what is stored. -/
def looks : Request → Bool
  | .find .. | .count .. => true
  | _ => false

/-- A request that only looks fails only where the check does. -/
theorem kind_of_look {s s' : Store} {request : Request} {e : StoreError}
    (hlooks : looks request = true) (h : s.answer request = (.error e, s')) :
    e.kind = .storeUnavailable ∨ e.kind = .invalidArgument := by
  have hanswered := s.answered request
  generalize s.answer request = outcome at hanswered h
  cases hanswered with
  | idle _ cause => exact cause e (congrArg Prod.fst h)
  | edited edits => cases edits <;> cases hlooks
  | dropped => cases hlooks

end StepLedger.Store

import StepLedger.Proofs.Collection.Twin
import StepLedger.Proofs.Store.Catalogue
import StepLedger.Proofs.Store.Durable

/-!
# Durable stores answer like those in memory

A store in memory puts a document in place of one that equals it, a durable store leaves the old one
there, for it writes only what has changed. The two then hold documents that are equal and no more:
`0.0` here and `-0.0` there. They are twins (`Store.Twins`), and no later request tells them apart
(`Twins.answer`), as long as what has to be written is written. So a durable store answers every
sequence of requests as a store in memory does (`durable_like_inMemory`).
-/

namespace StepLedger

/-- Two answers to a request say the same, where documents are compared as JSON values. -/
def Request.Agree : (request : Request) → request.Answer → request.Answer → Prop
  | .find .., ds, ds' => List.Forall₂ Document.Equal ds ds'
  | .findAndModify .., d, d' => Option.Rel Document.Equal d d'
  | .insertOne .., a, a' | .insertMany .., a, a' | .count .., a, a' | .updateFirst .., a, a'
  | .dropCollection .., a, a' => a = a'

namespace Store

variable {s s' m d : Store} {name : String}

/-! ## Operations on twins -/

theorem twin_orUnchanged {α : Type} {r : α → α → Prop} {c c' : Collection} (h : c.Twin c')
    {operation : Collection → Except StoreError (α × Collection)}
    (hop : Concur (fun p q => r p.1 q.1 ∧ p.2.Twin q.2) (operation c) (operation c')) :
    Concur r (orUnchanged operation c).1 (orUnchanged operation c').1 ∧
      (orUnchanged operation c).2.Twin (orUnchanged operation c').2 := by
  rw [orUnchanged, orUnchanged]
  generalize operation c = x, operation c' = y at hop ⊢
  cases hop with
  | ok hop => exact ⟨.ok hop.1, hop.2⟩
  | error he => exact ⟨.error he, h⟩

/-- What a request does to twins gives answers that agree, and twins. -/
theorem Edits.twin {request : Request} {create : Bool}
    {operation : Collection → Except StoreError request.Answer × Collection}
    (h : Edits request create operation) {c c' : Collection} (hc : c.Twin c') :
    Concur request.Agree (operation c).1 (operation c').1 ∧
      (operation c).2.Twin (operation c').2 := by
  cases h with
  | insertOne name d =>
    refine twin_orUnchanged hc ?_
    obtain ⟨e, hi, hi'⟩ | ⟨next, next', hi, hi', hnext⟩ := hc.insert d
    · rw [hi, hi']
      exact .error (.refl e)
    · rw [hi, hi']
      exact .ok ⟨rfl, hnext⟩
  | @insertMany name ds => exact hc.insertMany ds
  | updateFirst => exact twin_orUnchanged hc (hc.updateFirst _ _)
  | findAndModify => exact twin_orUnchanged hc (hc.findAndModify _ _ _)

/-- What a request does without a move of the revision leaves a twin of the collection before. -/
theorem Edits.twin_of_still {request : Request} {create : Bool}
    {operation : Collection → Except StoreError request.Answer × Collection}
    (h : Edits request create operation) {c : Collection}
    (hstill : (operation c).2.revision = c.revision) : c.Twin (operation c).2 := by
  have whole : ∀ {α : Type} {op : Collection → Except StoreError (α × Collection)},
      (∀ {a c'}, op c = .ok (a, c') → c'.revision = c.revision → c.Twin c') →
      (orUnchanged op c).2.revision = c.revision → c.Twin (orUnchanged op c).2 := by
    intro α op hop hstill
    cases h : op c with
    | error e => rw [orUnchanged_of_error h]; exact .refl c
    | ok result => rw [orUnchanged_of_ok h] at hstill ⊢; exact hop h hstill
  cases h with
  | insertOne name d =>
    refine whole (fun {_ c'} hop hstill => ?_) hstill
    obtain ⟨inserted, hi, heq⟩ := Except.map_eq_ok.1 hop
    cases heq
    exact absurd hstill (Nat.ne_of_gt (Collection.lt_revision_of_insert hi))
  | insertMany => exact Collection.twin_insertMany hstill
  | updateFirst => exact whole (fun hop => Collection.twin_updateFirst hop) hstill
  | findAndModify => exact whole (fun hop => Collection.twin_findAndModify hop) hstill

/-! ## Requests that are carried out -/

/-- The answer is that of the operation, and the collection after it, or a twin of that, is the one
in the store. -/
structure CarriedOut {α : Type} (s : Store) (name : String)
    (operation : Collection → Except StoreError α × Collection)
    (outcome : Except StoreError α × Store) : Prop where
  answer : outcome.1 = (operation (s.view name)).1
  after : (outcome.2.view name).Twin (operation (s.view name)).2
  others : ∀ other, other ≠ name → outcome.2.view other = s.view other

/-- Nothing had to be written, or it was. -/
def Written {α : Type} (s : Store) (result : Except StoreError α) : Prop :=
  s.archive = none ∨ ∀ e, e.IsOutage → result ≠ .error e

section CarriedOut

variable {α : Type} {create : Bool} {absent : α}
  {operation : Collection → Except StoreError α × Collection}

theorem carriedOut_commit {c : Collection} (hview : s.view name = c) (hname : c.name = name)
    (still : (operation c).2.revision = c.revision → c.Twin (operation c).2)
    (hwritten : s.Written (s.commit c (operation c)).1) :
    CarriedOut s name operation (s.commit c (operation c)) := by
  subst hview
  rw [Written, commit] at hwritten
  rw [commit]
  cases harchive : s.archive with
  | none =>
    refine ⟨rfl, ?_, fun other hne => ?_⟩
    · rw [hname, view_put_self]
      exact .refl _
    · rw [hname]
      exact view_put_ne s hne _
  | some archive =>
    have hdurable : ¬ s.archive = none := by
      rw [harchive]
      exact Option.some_ne_none archive
    have hwritten := hwritten.resolve_left hdurable
    rw [harchive] at hwritten
    dsimp only at hwritten ⊢
    split
    · next hstill => exact ⟨rfl, still hstill, fun _ _ => rfl⟩
    · next hmoved =>
      rw [if_neg hmoved] at hwritten
      cases hsave : archive.save (operation (s.view name)).2 with
      | mk saved archive' =>
        rw [hsave] at hwritten
        cases saved with
        | error e => exact absurd rfl (hwritten e (Archive.isOutage_of_save hsave))
        | ok _ =>
          refine ⟨rfl, ?_, fun other hne => ?_⟩
          · rw [hname]
            exact (view_put_self s name _).symm ▸ .refl _
          · rw [hname]
            exact view_put_ne s hne _

theorem carriedOut_mutate (hs : s.WellFormed) (hcheck : s.check name = .ok ())
    (blank : create = false → operation (.empty name) = (.ok absent, .empty name))
    (still : ∀ c, (operation c).2.revision = c.revision → c.Twin (operation c).2)
    (hwritten : s.Written (s.mutate name create absent operation).1) :
    CarriedOut s name operation (s.mutate name create absent operation) := by
  rw [mutate, hcheck] at hwritten ⊢
  cases hc : s.collection? name with
  | some c =>
    rw [hc] at hwritten
    have hview : s.view name = c := by rw [view, hc]; rfl
    exact carriedOut_commit hview (hview ▸ (hs name).2) (still c) hwritten
  | none =>
    rw [hc] at hwritten
    have hview : s.view name = .empty name := by rw [view, hc]; rfl
    cases create with
    | false =>
      dsimp only
      rw [if_neg Bool.false_ne_true]
      refine ⟨?_, ?_, fun _ _ => rfl⟩
      · rw [hview, blank rfl]
      · rw [hview, blank rfl]
        exact .refl _
    | true =>
      -- the collection is there before the operation, and is seen as before
      have hput := view_put_empty hc
      have hcommit := carriedOut_commit ((hput name).trans hview) rfl (still _) hwritten
      refine ⟨?_, ?_, fun other hne => (hcommit.others other hne).trans (hput other)⟩
      · rw [← hput name]
        exact hcommit.answer
      · rw [← hput name]
        exact hcommit.after

end CarriedOut

/-! ## Stores that are twins -/

/-- Two stores list the same collections, and what is seen under each name are twins. The first one
is in memory, and both are open. -/
structure Twins (m d : Store) : Prop where
  memory : m.archive = none
  opened : m.closed = false ∧ d.closed = false
  names : d.names = m.names
  views : ∀ name, (m.view name).Twin (d.view name)
  wellFormed : m.WellFormed ∧ d.WellFormed
  sorted : m.Sorted ∧ d.Sorted

theorem Twins.check_eq (h : Twins m d) (name : String) : d.check name = m.check name := by
  rw [check, check, h.opened.1, h.opened.2]

theorem archive_answer (hm : m.archive = none) (hs : m.WellFormed) (request : Request) :
    (m.answer request).2.archive = none := by
  have hanswered := m.answered request
  generalize m.answer request = outcome at hanswered ⊢
  cases hanswered with
  | idle => exact hm
  | @edited _ create absent operation edits =>
    have hmutated := edits.mutated hs absent
    generalize m.mutate request.collection create absent operation = outcome at hmutated ⊢
    cases hmutated with
    | refused | absent | inMemory => exact hm
    | idle _ _ durable | void _ _ durable | written _ _ durable => rw [hm] at durable; cases durable
  | dropped name =>
    have hdropped := m.dropped_drop name
    generalize m.drop name = outcome at hdropped ⊢
    cases hdropped with
    | refused | inMemory => exact hm
    | fileless _ durable | deleted _ durable | failed _ durable => rw [hm] at durable; cases durable

/-! ## Answers of twins -/

theorem Twins.read {α : Type} {r : α → α → Prop} (h : Twins m d) {absent : α}
    {look : Collection → α} (habsent : look (.empty name) = absent)
    (hlook : ∀ c c' : Collection, c.Twin c' → r (look c) (look c')) :
    Concur r (m.read name absent look).1 (d.read name absent look).1 := by
  have seen : ∀ s : Store, ((s.collection? name).map look).getD absent = look (s.view name) := by
    intro s
    rw [view]
    cases s.collection? name with
    | none => exact habsent.symm
    | some c => rfl
  rw [Store.read, Store.read, h.check_eq]
  cases m.check name with
  | error e => exact .error (.refl e)
  | ok _ =>
    refine .ok ?_
    rw [seen, seen]
    exact hlook _ _ (h.views name)

/-- What an edit that is carried out on both leaves. -/
theorem Twins.mutate {request : Request} {create : Bool} {absent : request.Answer}
    {operation : Collection → Except StoreError request.Answer × Collection} (h : Twins m d)
    (edits : Edits request create operation)
    (blank : create = false → ∀ name, operation (.empty name) = (.ok absent, .empty name))
    (hwritten : d.Written (d.mutate name create absent operation).1) :
    Concur request.Agree (m.mutate name create absent operation).1
        (d.mutate name create absent operation).1 ∧
      ∀ other, ((m.mutate name create absent operation).2.view other).Twin
        ((d.mutate name create absent operation).2.view other) := by
  cases hcheck : m.check name with
  | error e =>
    rw [Store.mutate, Store.mutate, h.check_eq, hcheck]
    exact ⟨.error (.refl e), h.views⟩
  | ok _ =>
    have hm := carriedOut_mutate h.wellFormed.1 hcheck (fun hcreate => blank hcreate name)
      (fun _ => edits.twin_of_still) (.inl h.memory)
    have hd := carriedOut_mutate h.wellFormed.2 ((h.check_eq name).trans hcheck)
      (fun hcreate => blank hcreate name) (fun _ => edits.twin_of_still) hwritten
    obtain ⟨hagree, htwin⟩ := edits.twin (h.views name)
    refine ⟨?_, fun other => ?_⟩
    · rw [hm.answer, hd.answer]
      exact hagree
    · by_cases hother : other = name
      · subst hother
        exact hm.after.trans (htwin.trans hd.after.symm)
      · rw [hm.others other hother, hd.others other hother]
        exact h.views other

theorem Twins.drop (h : Twins m d) (hwritten : d.Written (d.drop name).1) :
    Concur (· = ·) (m.drop name).1 (d.drop name).1 ∧
      ∀ other, ((m.drop name).2.view other).Twin ((d.drop name).2.view other) := by
  have gone : ∀ {s : Store}, s.check name = .ok () → s.Written (s.drop name).1 →
      (s.drop name).1 = .ok () ∧
        ∀ other, (s.drop name).2.view other = (s.erasing name).view other := by
    intro s hcheck hwritten
    have hdropped := s.dropped_drop name
    generalize s.drop name = outcome at hdropped hwritten ⊢
    cases hdropped with
    | refused cause => rw [hcheck] at cause; cases cause
    | inMemory | fileless | deleted => exact ⟨rfl, fun _ => rfl⟩
    | failed _ durable =>
      obtain hmemory | hok := hwritten
      · rw [hmemory] at durable
        cases durable
      · exact absurd rfl (hok _ (.inl rfl))
  cases hcheck : m.check name with
  | error e =>
    rw [Store.drop, Store.drop, h.check_eq, hcheck]
    exact ⟨.error (.refl e), h.views⟩
  | ok _ =>
    obtain ⟨hm, hmviews⟩ := gone hcheck (.inl h.memory)
    obtain ⟨hd, hdviews⟩ := gone ((h.check_eq name).trans hcheck) hwritten
    refine ⟨by rw [hm, hd]; exact .ok rfl, fun other => ?_⟩
    rw [hmviews, hdviews, view, view, collection?_erasing, collection?_erasing]
    split
    · exact .refl _
    · exact h.views other

/-- Twins give answers that agree, and what is seen of them afterwards are twins again. -/
theorem Twins.agree (h : Twins m d) (request : Request)
    (hwritten : d.Written (d.answer request).1) :
    Concur request.Agree (m.answer request).1 (d.answer request).1 ∧
      ∀ name, ((m.answer request).2.view name).Twin ((d.answer request).2.view name) := by
  cases request with
  | insertOne name c => exact h.mutate (.insertOne name c) nofun hwritten
  | insertMany name ds =>
    by_cases hds : ds = []
    · subst hds
      exact ⟨.ok rfl, h.views⟩
    · have hne : ¬ ds.isEmpty = true := by simpa using hds
      simp only [answer, Store.insertMany, if_neg hne] at hwritten ⊢
      exact h.mutate (.insertMany name hds) nofun hwritten
  | find name f =>
    refine ⟨h.read rfl fun _ _ hc => hc.find f, fun other => ?_⟩
    simp only [answer, snd_find]
    exact h.views other
  | count name f =>
    refine ⟨h.read rfl fun _ _ hc => hc.count f, fun other => ?_⟩
    simp only [answer, snd_count]
    exact h.views other
  | updateFirst name f u =>
    cases hu : u.isEmpty with
    | true =>
      simp only [answer, Store.updateFirst, if_pos hu]
      exact ⟨.error (.refl _), h.views⟩
    | false =>
      simp only [answer, Store.updateFirst, if_neg (Bool.eq_false_iff.1 hu)] at hwritten ⊢
      exact h.mutate (.updateFirst name f hu)
        (fun _ name => orUnchanged_of_ok (Collection.updateFirst_empty name f u)) hwritten
  | findAndModify name f u how =>
    cases hu : u.isEmpty with
    | true =>
      simp only [answer, Store.findAndModify, if_pos hu]
      exact ⟨.error (.refl _), h.views⟩
    | false =>
      simp only [answer, Store.findAndModify, if_neg (Bool.eq_false_iff.1 hu)] at hwritten ⊢
      exact h.mutate (.findAndModify name f how hu)
        (fun hup name => orUnchanged_of_ok (Collection.findAndModify_empty name f u hup)) hwritten
  | dropCollection name => exact h.drop hwritten

/-- Twins list the same collections after a request. -/
theorem Twins.names_answer (h : Twins m d) (request : Request) :
    (d.answer request).2.names = (m.answer request).2.names := by
  obtain ⟨hmsorted, hmnames⟩ := answer_names h.wellFormed.1 request
  obtain ⟨hdsorted, hdnames⟩ := answer_names h.wellFormed.2 request
  refine (hmsorted h.sorted.1).names_ext (hdsorted h.sorted.2) fun other => ?_
  by_cases hdrop : ∃ name, request = .dropCollection name
  · obtain ⟨name, rfl⟩ := hdrop
    have hm : Dropped m name ((m.drop name).1, (m.drop name).2) := m.dropped_drop name
    have hd : Dropped d name ((d.drop name).1, (d.drop name).2) := d.dropped_drop name
    refine hd.mem_names.trans (Iff.trans ?_ hm.mem_names.symm)
    rw [h.names, h.check_eq]
  · rw [hmnames (fun name heq => hdrop ⟨name, heq⟩), hdnames (fun name heq => hdrop ⟨name, heq⟩),
      h.names, h.check_eq]

/-- Stores that are twins are so after every request. -/
theorem Twins.answer (h : Twins m d) (request : Request)
    (hwritten : d.Written (d.answer request).1) :
    Twins (m.answer request).2 (d.answer request).2 where
  memory := archive_answer h.memory h.wellFormed.1 request
  opened := ⟨(closed_answer h.wellFormed.1 request).trans h.opened.1,
    (closed_answer h.wellFormed.2 request).trans h.opened.2⟩
  names := h.names_answer request
  views := (h.agree request hwritten).2
  wellFormed := ⟨h.wellFormed.1.answer request, h.wellFormed.2.answer request⟩
  sorted := ⟨(answer_names h.wellFormed.1 request).1 h.sorted.1,
    (answer_names h.wellFormed.2 request).1 h.sorted.2⟩

/-! ## Runs -/

/-- All that the store has to write and to delete for the requests is written and deleted: an open
store only answers with an outage if it is not. Each request finds the disk in a condition of
its own. -/
def Unhindered (s : Store) : List (Disk.Condition × Request) → Prop
  | [] => True
  | (condition, request) :: moves =>
    (∀ e, e.IsOutage → ((s.under condition).answer request).1 ≠ .error e) ∧
      Unhindered ((s.under condition).answer request).2 moves

/-- Request by request, a durable store gives an answer that agrees with that of a store in memory,
and lists the same collections. -/
def Matches (m d : Store) : List (Disk.Condition × Request) → Prop
  | [] => True
  | (condition, request) :: moves =>
    Concur request.Agree (m.answer request).1 ((d.under condition).answer request).1 ∧
      ((d.under condition).answer request).2.names = (m.answer request).2.names ∧
      Matches (m.answer request).2 ((d.under condition).answer request).2 moves

/-- The condition of the disk does not matter to what is seen. -/
theorem Twins.under (h : Twins m d) (condition : Disk.Condition) : Twins m (d.under condition) :=
  { h with }

theorem Twins.matches {moves : List (Disk.Condition × Request)} (h : Twins m d)
    (hmoves : d.Unhindered moves) : Matches m d moves := by
  induction moves generalizing m d with
  | nil => trivial
  | cons move moves ih =>
    obtain ⟨condition, request⟩ := move
    obtain ⟨hwritten, hrest⟩ := hmoves
    have hunder := h.under condition
    exact ⟨(hunder.agree request (.inr hwritten)).1, hunder.names_answer request,
      ih (hunder.answer request (.inr hwritten)) hrest⟩

/-- A durable store that is opened without collections answers any requests as a store in memory
does and lists the same collections, provided that what it has to write and to delete is written and
deleted. -/
theorem durable_like_inMemory {archive : Archive} {moves : List (Disk.Condition × Request)}
    (hopen : ofArchive archive = .ok d) (hnew : d.names = []) (hmoves : d.Unhindered moves) :
    Matches inMemory d moves := by
  obtain ⟨-, hopened⟩ := archive_of_ofArchive hopen
  have hempty : d.collections = [] := List.map_eq_nil_iff.1 hnew
  refine Twins.matches ⟨rfl, ⟨rfl, hopened⟩, hnew, fun name => ?_, ?_, ?_⟩ hmoves
  · rw [view, view, collection?, collection?, hempty]
    exact .refl _
  · exact ⟨Reachable.inMemory.wellFormed, wellFormed_of_ofArchive hopen⟩
  · exact ⟨Reachable.inMemory.sorted, (Reachable.ofArchive hopen).sorted⟩

/-- A request to put in a document with a zero, one to put the other zero in its place, and one to
look. -/
def zeroMoves : List (Disk.Condition × Request) :=
  [.insertOne "pages" (.ofList [("id", .ofInt64 7), ("v", .number (.float (.zero false)))]),
    .updateFirst "pages" .all (Update.empty.andSet "v" (.number (.float (.zero true)))),
    .find "pages" .all].map (⟨(Archive.drawer none).disk.now, none⟩, ·)

/-- The zero is replaced in memory only, and the documents that are found are equal. -/
theorem zeros_like_inMemory :
    (cabinet none).Unhindered zeroMoves ∧ Matches inMemory (cabinet none) zeroMoves := by
  have hmoves : (cabinet none).Unhindered zeroMoves := ⟨nofun, nofun, nofun, trivial⟩
  have hopen : ofArchive (.drawer none) = .ok (cabinet none) := rfl
  exact ⟨hmoves, durable_like_inMemory hopen rfl hmoves⟩

end Store

end StepLedger

import Mathlib.Data.List.Forall2
import StepLedger.Proofs.Collection.WellFormed
import StepLedger.Proofs.Document.Equal

/-!
# Collections with equal documents

Twins are collections whose documents are equal, one by one, with the same keys and the same revision
(`Collection.Twin`). No operation tells them apart: its results concur and it leaves twins
(`Twin.insert`, `Twin.insertMany`, `Twin.updateFirst`, `Twin.findAndModify`). An operation that does not
move the revision leaves a twin of the collection before it (`twin_updateFirst` and the like).
-/

namespace StepLedger

/-! ## Lists item by item -/

section Lists

variable {α : Type} {r : α → α → Prop} {as bs : List α}

theorem findIdx?_congr {p : α → Bool} (hp : ∀ a b, r a b → p a = p b) (h : List.Forall₂ r as bs) :
    as.findIdx? p = bs.findIdx? p := by
  induction h with
  | nil => rfl
  | cons hab _ ih => rw [List.findIdx?_cons, List.findIdx?_cons, hp _ _ hab, ih]

theorem rel_getElem? (h : List.Forall₂ r as bs) (i : Nat) : Option.Rel r as[i]? bs[i]? := by
  induction h generalizing i with
  | nil => exact .none
  | cons hab _ ih =>
    cases i with
    | zero => exact .some hab
    | succ i => exact ih i

theorem forall₂_set {a b : α} (h : List.Forall₂ r as bs) (hab : r a b) (i : Nat) :
    List.Forall₂ r (as.set i a) (bs.set i b) := by
  induction h generalizing i with
  | nil => exact .nil
  | cons hhead hrest ih =>
    cases i with
    | zero => exact .cons hab hrest
    | succ i => exact .cons hhead (ih i)

/-- An item may be replaced by another that it is related to. -/
theorem forall₂_set_self {a b : α} (hrefl : ∀ a, r a a) {i : Nat} (hi : as[i]? = some a)
    (hab : r a b) : List.Forall₂ r as (as.set i b) := by
  obtain ⟨hlt, rfl⟩ := List.getElem?_eq_some_iff.1 hi
  have hself : List.Forall₂ r as as := List.forall₂_same.2 fun a _ => hrefl a
  have h := forall₂_set hself hab i
  rwa [List.set_getElem_self] at h

theorem forall₂_trans {cs : List α} (htrans : ∀ a b c, r a b → r b c → r a c)
    (h : List.Forall₂ r as bs) (h' : List.Forall₂ r bs cs) : List.Forall₂ r as cs := by
  induction h generalizing cs with
  | nil => exact h'
  | cons hab _ ih =>
    cases h' with
    | cons hbc hrest => exact .cons (htrans _ _ _ hab hbc) (ih hrest)

end Lists

namespace Collection

/-- The documents are equal one by one, and the rest is the same. -/
structure Twin (c c' : Collection) : Prop where
  name : c'.name = c.name
  documents : List.Forall₂ Document.Equal c.documents c'.documents
  keys : c'.keys = c.keys
  revision : c'.revision = c.revision

variable {c c' c'' : Collection}

theorem Twin.refl (c : Collection) : c.Twin c :=
  ⟨rfl, List.forall₂_same.2 fun d _ => .refl d, rfl, rfl⟩

theorem Twin.symm (h : c.Twin c') : c'.Twin c :=
  ⟨h.name.symm, (h.documents.imp fun _ _ => Document.Equal.symm).flip, h.keys.symm, h.revision.symm⟩

theorem Twin.trans (h : c.Twin c') (h' : c'.Twin c'') : c.Twin c'' where
  name := h'.name.trans h.name
  documents := forall₂_trans (fun _ _ _ => Document.Equal.trans) h.documents h'.documents
  keys := h'.keys.trans h.keys
  revision := h'.revision.trans h.revision

/-! ## Reading -/

theorem Twin.find (h : c.Twin c') (f : Filter) :
    List.Forall₂ Document.Equal (c.find f) (c'.find f) :=
  List.rel_filter (fun _ _ hd => Bool.eq_iff_iff.1 (Filter.selects_congr f hd)) h.documents

theorem Twin.count (h : c.Twin c') (f : Filter) : c.count f = c'.count f := by
  rw [Collection.count, Collection.count, List.countP_eq_length_filter, List.countP_eq_length_filter]
  exact (h.find f).length_eq

/-- The first match of a filter stands at the same place in both, or there is none in either. -/
theorem Twin.first? (h : c.Twin c') (f : Filter) :
    c.first? f = none ∧ c'.first? f = none ∨
      ∃ i d d', c.first? f = some (i, d) ∧ c'.first? f = some (i, d') ∧ d.Equal d' := by
  have hposition : c'.position? f = c.position? f := by
    rw [position?, position?, h.keys,
      findIdx?_congr (fun _ _ hd => Filter.selects_congr f hd) h.documents]
  rw [Collection.first?, Collection.first?, hposition]
  cases c.position? f with
  | none => exact .inl ⟨rfl, rfl⟩
  | some i =>
    have hi := rel_getElem? h.documents i
    simp only [Option.bind_some]
    generalize c.documents[i]? = found, c'.documents[i]? = found' at hi ⊢
    cases hi with
    | none => exact .inl ⟨rfl, rfl⟩
    | some hd => exact .inr ⟨i, _, _, rfl, rfl, hd⟩

/-! ## Changing -/

/-- A document is inserted into both, or into neither for the same reason. -/
theorem Twin.insert (h : c.Twin c') (d : Document) :
    (∃ e, c.insert d = .error e ∧ c'.insert d = .error e) ∨
      ∃ next next', c.insert d = .ok next ∧ c'.insert d = .ok next' ∧ next.Twin next' := by
  rw [Collection.insert, Collection.insert, h.name, h.keys]
  split
  · exact .inl ⟨_, rfl, rfl⟩
  · split
    · exact .inl ⟨_, rfl, rfl⟩
    · refine .inr ⟨_, _, rfl, rfl, rfl, List.rel_append h.documents (.cons (.refl d) .nil), rfl, ?_⟩
      rw [h.revision]

theorem Twin.insertMany (h : c.Twin c') (ds : List Document) :
    Concur (· = ·) (c.insertMany ds).1 (c'.insertMany ds).1 ∧
      (c.insertMany ds).2.Twin (c'.insertMany ds).2 := by
  suffices hgo : ∀ (ds : List Document) (c c' : Collection) (n : Nat), c.Twin c' →
      Concur (· = ·) (insertMany.go c n ds).1 (insertMany.go c' n ds).1 ∧
        (insertMany.go c n ds).2.Twin (insertMany.go c' n ds).2 from hgo ds c c' 0 h
  intro ds
  induction ds with
  | nil => exact fun c c' n h => ⟨.ok rfl, h⟩
  | cons d ds ih =>
    intro c c' n h
    rw [insertMany.go, insertMany.go]
    obtain ⟨e, hc, hc'⟩ | ⟨next, next', hc, hc', hnext⟩ := h.insert d
    · rw [hc, hc']
      exact ⟨.error (.refl _), h⟩
    · rw [hc, hc']
      exact ih next next' (n + 1) hnext

theorem Twin.replaceAt (h : c.Twin c') (i : Nat) {before before' after after' : Document}
    (hbefore : before.Equal before') (hafter : after.Equal after') :
    (c.replaceAt i before after).Twin (c'.replaceAt i before' after') where
  name := h.name
  documents := forall₂_set h.documents hafter i
  keys := h.keys
  revision := by
    rw [Collection.replaceAt, Collection.replaceAt, hbefore.same_congr hafter, h.revision]

theorem Twin.updateFirst (h : c.Twin c') (f : Filter) (u : Update) :
    Concur (fun p q => p.1 = q.1 ∧ p.2.Twin q.2) (c.updateFirst f u) (c'.updateFirst f u) := by
  rw [Collection.updateFirst, Collection.updateFirst]
  obtain ⟨hc, hc'⟩ | ⟨i, d, d', hc, hc', hd⟩ := h.first? f
  · rw [hc, hc']
    exact .ok ⟨rfl, h⟩
  · rw [hc, hc']
    refine (Update.apply_congr u hd).bind fun after after' hafter => .ok ⟨?_, h.replaceAt i hd hafter⟩
    rw [hd.same_congr hafter]

theorem Twin.findAndModify (h : c.Twin c') (f : Filter) (u : Update) (how : FindAndModify) :
    Concur (fun p q => Option.Rel Document.Equal p.1 q.1 ∧ p.2.Twin q.2)
      (c.findAndModify f u how) (c'.findAndModify f u how) := by
  rw [Collection.findAndModify, Collection.findAndModify]
  obtain ⟨hc, hc'⟩ | ⟨i, d, d', hc, hc', hd⟩ := h.first? f
  · rw [hc, hc']
    dsimp only
    split
    · refine (Concur.refl (r := (· = ·)) (fun _ => rfl) (u.create f)).bind fun created _ heq => ?_
      subst heq
      obtain ⟨e, hi, hi'⟩ | ⟨next, next', hi, hi', hnext⟩ := h.insert created
      · rw [hi, hi']
        exact .error (.refl e)
      · rw [hi, hi']
        refine .ok ⟨?_, hnext⟩
        split
        · exact .some (.refl created)
        · exact .none
    · exact .ok ⟨.none, h⟩
  · rw [hc, hc']
    refine (Update.apply_congr u hd).bind fun after after' hafter => .ok ⟨?_, h.replaceAt i hd hafter⟩
    split
    · exact .some hafter
    · exact .some hd

/-! ## Operations that change nothing -/

/-- A document that is replaced without a move of the revision is replaced by an equal one. -/
theorem twin_replaceAt {i : Nat} {before after : Document} (hi : c.documents[i]? = some before)
    (hstill : (c.replaceAt i before after).revision = c.revision) :
    c.Twin (c.replaceAt i before after) where
  name := rfl
  documents := forall₂_set_self Document.Equal.refl hi
    (Document.Equal.symm (same_of_revision_replaceAt hstill))
  keys := rfl
  revision := hstill

theorem lt_revision_of_insert {d : Document} (h : c.insert d = .ok c') :
    c.revision < c'.revision := by
  obtain ⟨_, _, _, rfl⟩ := insert_eq_ok h
  exact Nat.lt_succ_self _

theorem twin_insertMany {ds : List Document}
    (hstill : (c.insertMany ds).2.revision = c.revision) : c.Twin (c.insertMany ds).2 := by
  have hsame : (c.insertMany ds).2 = c ∨ c.revision < (c.insertMany ds).2.revision := by
    refine insertMany_induction (motive := fun c' => c' = c ∨ c.revision < c'.revision) (.inl rfl)
      (fun h hi => .inr ?_) ds
    obtain rfl | hlt := h
    · exact lt_revision_of_insert hi
    · exact Nat.lt_trans hlt (lt_revision_of_insert hi)
  rw [hsame.resolve_right (by rw [hstill]; exact Nat.lt_irrefl _)]
  exact .refl c

theorem twin_updateFirst {f : Filter} {u : Update} {result : UpdateResult}
    (h : c.updateFirst f u = .ok (result, c')) (hstill : c'.revision = c.revision) : c.Twin c' := by
  obtain ⟨-, -, rfl⟩ | ⟨i, before, after, hfirst, -, -, rfl⟩ := updateFirst_eq_ok h
  · exact .refl _
  · exact twin_replaceAt (first?_eq_some hfirst).1 hstill

theorem twin_findAndModify {f : Filter} {u : Update} {how : FindAndModify}
    {result : Option Document} (h : c.findAndModify f u how = .ok (result, c'))
    (hstill : c'.revision = c.revision) : c.Twin c' := by
  obtain ⟨i, before, after, hfirst, -, -, rfl⟩ | ⟨-, ⟨-, -, rfl⟩ | ⟨-, created, -, hi, -⟩⟩ :=
    findAndModify_eq_ok h
  · exact twin_replaceAt (first?_eq_some hfirst).1 hstill
  · exact .refl _
  · exact absurd hstill (Nat.ne_of_gt (lt_revision_of_insert hi))

end Collection

end StepLedger

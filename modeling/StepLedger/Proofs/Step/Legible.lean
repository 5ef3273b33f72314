import StepLedger.Proofs.Step.Stored

/-!
# Collections that can be read as steps

A snapshot may hold steps whose times are written in other forms than `StepRecord.toDocument` writes
them. What operations keep of such a collection is that every document in it is read as a step or is
of no job (`IsStepOrLacks.isKept`), in particular of no job instance (`IsLegible`): an update of what is
read as a step makes it what is read as the new record (`StepRecord.ofDocument_apply_update`), and
counters, which may share the collection, have a text for a key and no job.
-/

namespace StepLedger

open Sequence

namespace StepRecord

variable {d e : Document} {r before : StepRecord}

/-- What a record shows of its identity stands in the document that it was read from. -/
theorem get?_of_ofDocument (h : ofDocument d = .ok r) :
    d.get? idField = some (.number (.ofInt64 r.id)) ∧
      d.get? nameField = some (.string r.name) ∧
      d.get? parentField = some (.number (.ofInt64 r.job.id)) ∧
      d.get? parentInstanceField = some (.number (.ofInt64 r.job.jobInstance)) := by
  unfold ofDocument at h
  -- nineteen fields are looked at, by ascending name
  iterate 5 obtain ⟨_, -, h⟩ := Except.bind_eq_ok.1 h
  obtain ⟨_, hid, h⟩ := Except.bind_eq_ok.1 h
  obtain ⟨_, -, h⟩ := Except.bind_eq_ok.1 h
  obtain ⟨_, hname, h⟩ := Except.bind_eq_ok.1 h
  obtain ⟨_, hparent, h⟩ := Except.bind_eq_ok.1 h
  obtain ⟨_, hinstance, h⟩ := Except.bind_eq_ok.1 h
  iterate 9 obtain ⟨_, -, h⟩ := Except.bind_eq_ok.1 h
  -- then those that are required, in the order of the layout
  obtain ⟨id, hid', h⟩ := Except.bind_eq_ok.1 h
  obtain ⟨_, -, h⟩ := Except.bind_eq_ok.1 h
  obtain ⟨name, hname', h⟩ := Except.bind_eq_ok.1 h
  obtain ⟨parent, hparent', h⟩ := Except.bind_eq_ok.1 h
  obtain ⟨parentInstance, hinstance', h⟩ := Except.bind_eq_ok.1 h
  iterate 12 obtain ⟨_, -, h⟩ := Except.bind_eq_ok.1 h
  obtain rfl := Except.ok.inj h
  rw [DecodeError.require_eq_ok] at hid' hname' hparent' hinstance'
  subst hid' hname' hparent' hinstance'
  rw [Document.field?_eq_some] at hid hname hparent hinstance
  simp only [Json.Value.toInt64_eq_ok_iff, Json.Value.toText_eq_ok_iff] at hid hname hparent hinstance
  obtain ⟨_, hid, rfl⟩ := hid
  obtain ⟨_, hname, rfl⟩ := hname
  obtain ⟨_, hparent, rfl⟩ := hparent
  obtain ⟨_, hinstance, rfl⟩ := hinstance
  exact ⟨hid, hname, hparent, hinstance⟩

/-- A record is read from the fields of the layout and from nothing else. -/
theorem ofDocument_congr (h : ∀ name ∈ names, d.get? name = e.get? name) :
    ofDocument d = ofDocument e := by
  unfold ofDocument
  iterate 19
    refine congrArg₂ Bind.bind (Document.field?_congr (h _ (by decide)) _) (funext fun _ => ?_)
  rfl

/-- An update of what is read as a record makes it what is read as the new record, with the id, the
name and the job that were there. -/
theorem ofDocument_apply_update (h : ofDocument d = .ok before) (r : StepRecord) :
    ∃ d', r.update.apply d = .ok d' ∧ ofDocument d' = .ok (r.laidOver before).carried := by
  refine ⟨_, Update.apply_set r.get?_id_update d, ?_⟩
  rw [← ofDocument_toDocument (r.laidOver before)]
  refine ofDocument_congr fun name hname => ?_
  show (d.overlay (r.toDocument.restrict mutableFields)).get? name = _
  rw [Document.get?_overlay, Document.get?_restrict]
  cases hmutable : mutableFields.contains name with
  | true =>
    obtain ⟨value, hvalue⟩ := Option.isSome_iff_exists.1 (isSome_get?_of_mutable hmutable r)
    rw [get?_laidOver_of_mutable hmutable, if_pos rfl, hvalue, Option.some_or]
  | false =>
    rw [get?_laidOver_of_not_mutable hmutable, if_neg (by simp), Option.none_or]
    obtain ⟨hid, hname', hparent, hinstance⟩ := get?_of_ofDocument h
    -- what is not written has only one form
    obtain rfl | rfl | rfl | rfl : name = idField ∨ name = nameField ∨ name = parentField ∨
        name = parentInstanceField := by
      revert name
      decide
    · rw [hid, Store.get?_id_toDocument]
    · rw [hname', Store.get?_name_toDocument]
    · rw [hparent, Store.get?_parent_toDocument]
    · rw [hinstance, Store.get?_parentInstance_toDocument]

end StepRecord

/-! ## Legible documents -/

/-- The document is read as a step, or it lacks a field. -/
def IsStepOrLacks (field : String) (d : Document) : Prop :=
  (∃ r, StepRecord.ofDocument d = .ok r) ∨ d.get? field = none

namespace IsStepOrLacks

variable {field : String}

/-- What has a text for a key is not read as a step. -/
theorem get?_eq_none {d : Document} (h : IsStepOrLacks field d) {name : String}
    (hid : d.get? idField = some (.string name)) : d.get? field = none := by
  rcases h with ⟨r, hr⟩ | hnone
  · rw [(StepRecord.get?_of_ofDocument hr).1] at hid
    cases hid
  · exact hnone

/-- What is read as a step still is after an update, and what is of no job stays so. -/
theorem isKept (hfield : field ∈ StepRecord.jobFields) : Store.IsKept (IsStepOrLacks field) where
  record r := .inl ⟨r.carried, StepRecord.ofDocument_toDocument r⟩
  update {before after id r} hbefore _ happly := by
    rcases hbefore with ⟨b, hb⟩ | hnone
    · obtain ⟨d', hd', hread⟩ := StepRecord.ofDocument_apply_update hb r
      obtain rfl := Except.ok.inj (hd'.symm.trans happly)
      exact .inl ⟨_, hread⟩
    · have hfixed : ∀ field ∈ StepRecord.jobFields,
          StepRecord.mutableFields.contains field = false := by decide
      refine .inr ?_
      rw [Update.get?_of_apply happly List.not_mem_nil, hnone, Option.or_none]
      show (r.toDocument.restrict StepRecord.mutableFields).get? field = none
      rw [Document.get?_restrict, hfixed field hfield]
      rfl
  counter hbefore hid hspares happly := by
    refine .inr ?_
    rw [(hspares field hfield).get?_of_apply happly, hbefore.get?_eq_none hid]
  seed {name initial note d} hcreate := by
    have hother : ∀ field ∈ StepRecord.jobFields,
        field ≠ idField ∧ field ≠ valueField ∧ field ≠ noteField := by decide
    obtain ⟨hid, hvalue, hnote⟩ := hother field hfield
    rw [Counter.create_seeding] at hcreate
    obtain rfl := Except.ok.inj hcreate
    refine .inr ?_
    have hseed : (Counter.seeding initial note).setOnInsert.get? field = none := by
      show ((Document.empty.set valueField _).set noteField _).get? _ = none
      rw [Document.get?_set_ne _ hnote, Document.get?_set_ne _ hvalue, Document.get?_empty]
    have hkeyed : (Document.ofList (Filter.byId (.string name)).clauses).get? field = none := by
      show (Document.empty.set idField _).get? field = none
      rw [Document.get?_set_ne _ hid, Document.get?_empty]
    rw [Document.get?_overlay, hseed, hkeyed]
    rfl

end IsStepOrLacks

/-- The document is read as a step, or it is of no job instance, like a counter. -/
def IsLegible (d : Document) : Prop :=
  (∃ r, StepRecord.ofDocument d = .ok r) ∨ d.get? StepRecord.parentInstanceField = none

theorem IsLegible.isKept : Store.IsKept IsLegible :=
  IsStepOrLacks.isKept (by decide : StepRecord.parentInstanceField ∈ StepRecord.jobFields)

/-! ## Stores that operations lead to -/

/-- A collection holds steps, in whatever form their times are written, and otherwise only documents of
no job instance. -/
def Store.Legible (s : Store) (collection : String) : Prop := s.Holds IsLegible collection

/-- The stores that operations of any clients lead to, from one whose collection of steps is
legible. -/
def Site.Fills (site : Site) (s : Store) : Prop :=
  ∃ (first : Store) (moves : List (Move Command)), first.Reachable ∧ first.Legible site.steps ∧
    s = ((World.ofStore first).run site.program moves).store

theorem Site.Fills.of_legible {site : Site} {s : Store} (hs : s.Reachable)
    (h : s.Legible site.steps) : site.Fills s :=
  ⟨s, [], hs, h, rfl⟩

/-- Operations keep the collection of steps legible. -/
theorem Site.Fills.legible {site : Site} {s : Store} (h : site.Fills s) :
    s.WellFormed ∧ s.Legible site.steps := by
  obtain ⟨first, moves, hfirst, hsteps, rfl⟩ := h
  exact Store.Holds.run IsLegible.isKept hfirst hsteps moves

end StepLedger

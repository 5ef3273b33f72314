import StepLedger.Proofs.Step.Operation
import StepLedger.Proofs.Store.Kept

/-!
# Collections of stored steps

`Store.HoldsSteps` says that a collection holds nothing but documents of step records and documents
with a text for a key, such as counters. So the document that an update changes is that of a record,
and becomes that of another (`updateFirst_step`). Every request that an operation poses keeps it so
(`isKept_isStored`, `Holds.run`), even if steps and counters share one collection.
-/

namespace StepLedger

open Sequence

/-- The document of a step record, or one whose key is a text. -/
def IsStored (d : Document) : Prop :=
  (∃ r : StepRecord, d = r.toDocument) ∨ ∃ name, d.get? idField = some (.string name)

/-- The fields that say which run of a job, and so which job instance, a step belongs to. -/
def StepRecord.jobFields : List String := [StepRecord.parentField, StepRecord.parentInstanceField]

theorem StepRecord.forall_jobFields {p : String → Prop} :
    (∀ field ∈ jobFields, p field) ↔ p parentField ∧ p parentInstanceField := by
  simp [jobFields]

/-- The update neither sets the field nor adds to it. -/
def Update.Spares (u : Update) (field : String) : Prop :=
  u.set.get? field = none ∧ field ∉ u.inc.map (·.1)

theorem Update.Spares.get?_of_apply {u : Update} {field : String} {before after : Document}
    (h : u.Spares field) (happly : u.apply before = .ok after) :
    after.get? field = before.get? field := by
  rw [Update.get?_of_apply happly h.2, h.1, Option.none_or]

namespace Store

/-- A collection holds step records, and otherwise only documents with a text for a key. -/
def HoldsSteps (s : Store) (collection : String) : Prop :=
  ∀ d ∈ (s.view collection).documents, IsStored d

variable {s s' : Store} {collection name : String}

theorem HoldsSteps.of_alike (h : s.HoldsSteps collection) (halike : s.Alike s') :
    s'.HoldsSteps collection := Holds.of_alike h halike

/-! ## Steps -/

/-- The key of the document of a step is its id. -/
theorem get?_id_toDocument (r : StepRecord) :
    r.toDocument.get? idField = some (.number (.ofInt64 r.id)) :=
  StepRecord.get?_toDocument_of_mem
    (show (idField, Json.ofInt64 r.id) ∈ r.layout by simp [StepRecord.layout])

theorem get?_version_toDocument (r : StepRecord) :
    r.toDocument.get? StepRecord.versionField = some (.number (.ofInt32 r.version)) :=
  StepRecord.get?_toDocument_of_mem
    (show (StepRecord.versionField, Json.ofInt32 r.version) ∈ r.layout by simp [StepRecord.layout])

theorem get?_name_toDocument (r : StepRecord) :
    r.toDocument.get? StepRecord.nameField = some (.string r.name) :=
  StepRecord.get?_toDocument_of_mem
    (show (StepRecord.nameField, Json.string r.name) ∈ r.layout by simp [StepRecord.layout])

theorem get?_parent_toDocument (r : StepRecord) :
    r.toDocument.get? StepRecord.parentField = some (.number (.ofInt64 r.job.id)) :=
  StepRecord.get?_toDocument_of_mem
    (show (StepRecord.parentField, Json.ofInt64 r.job.id) ∈ r.layout by simp [StepRecord.layout])

theorem get?_parentInstance_toDocument (r : StepRecord) :
    r.toDocument.get? StepRecord.parentInstanceField =
      some (.number (.ofInt64 r.job.jobInstance)) :=
  StepRecord.get?_toDocument_of_mem
    (show (StepRecord.parentInstanceField, Json.ofInt64 r.job.jobInstance) ∈ r.layout by
      simp [StepRecord.layout])

theorem get?_id_toDocument_iff {r : StepRecord} {id : Int64} :
    r.toDocument.get? idField = some (Json.ofInt64 id).value ↔ r.id = id := by
  rw [get?_id_toDocument]
  exact (Option.some_inj.trans Json.Value.ofInt64_inj)

theorem get?_parent_toDocument_iff {r : StepRecord} {id : Int64} :
    r.toDocument.get? StepRecord.parentField = some (Json.ofInt64 id).value ↔ r.job.id = id := by
  rw [get?_parent_toDocument]
  exact (Option.some_inj.trans Json.Value.ofInt64_inj)

/-- A stored document with a number for a key is that of a step. -/
theorem exists_record {d : Document} (h : IsStored d) {id : Int64}
    (hid : d.get? idField = some (.number (.ofInt64 id))) :
    ∃ r : StepRecord, d = r.toDocument ∧ r.id = id := by
  obtain ⟨r, rfl⟩ | ⟨name, hname⟩ := h
  · exact ⟨r, rfl, get?_id_toDocument_iff.1 hid⟩
  · rw [hname] at hid
    cases hid

/-- Documents of steps at another version are not the same. -/
theorem not_same_of_version {r before : StepRecord} (h : r.version ≠ before.version) :
    ¬ r.toDocument.same before.toDocument = true := by
  intro hsame
  have hversion := Document.get?_eq_of_same (Json.exact_ofInt32 before.version) hsame
    (get?_version_toDocument before)
  rw [get?_version_toDocument] at hversion
  exact h (Json.Value.ofInt32_inj.1 (Option.some.inj hversion))

/-- An update over a version finds no step at that version and changes nothing, or it puts the new
record in the place of the one it finds. -/
theorem updateFirst_step (hs : s.WellFormed) (h : s.HoldsSteps collection) {id : Int64}
    {version : Int32} {r : StepRecord} (hversion : r.version ≠ version) {result : UpdateResult}
    (hupdate : s.updateFirst collection ((Filter.byId (.ofInt64 id)).and StepRecord.versionField
      (.ofInt32 version)) r.update = (.ok result, s')) :
    result.matched = 0 ∧ s.Alike s' ∨
      ∃ (i : Nat) (before : StepRecord),
        (s.view collection).documents[i]? = some before.toDocument ∧ before.id = id ∧
        before.version = version ∧ result.matched = 1 ∧
        s.Becomes s' collection
          ((s.view collection).documents.set i (r.laidOver before).toDocument) := by
  obtain ⟨-, hmatched, halike⟩ | ⟨i, before, after, hfirst, happly, hmatched, heffect⟩ :=
    updateFirst_ok hs hupdate
  · exact .inl ⟨hmatched, halike⟩
  · obtain ⟨hi, hsel⟩ := Collection.first?_eq_some hfirst
    obtain ⟨hid, hver⟩ := (Filter.selects_byId_and_iff (Json.exact_ofInt64 id)
      (Json.exact_ofInt32 version)).1 hsel
    obtain ⟨b, rfl, hbid⟩ := exists_record (h before (List.mem_of_getElem? hi)) hid
    rw [get?_version_toDocument] at hver
    have hbversion : b.version = version := Json.Value.ofInt32_inj.1 (Option.some.inj hver)
    rw [StepRecord.apply_update] at happly
    obtain rfl := Except.ok.inj happly
    refine .inr ⟨i, b, hi, hbid, hbversion, hmatched, ?_⟩
    rcases heffect with hbecomes | ⟨hsame, -⟩
    · exact hbecomes
    · exact absurd hsame (not_same_of_version (r := r.laidOver b) (by
        show r.version ≠ b.version
        rwa [hbversion]))

/-! ## What operations keep -/

/-- The property is that of the documents that operations put into a collection, if it is that of
those which they find there. -/
structure IsKept (p : Document → Prop) : Prop where
  record : ∀ r : StepRecord, p r.toDocument
  update : ∀ {before after : Document} {id : Int64} {r : StepRecord}, p before →
    before.get? idField = some (.number (.ofInt64 id)) → r.update.apply before = .ok after → p after
  /-- Counters have a text for a key, and what is done to them concerns no job. -/
  counter : ∀ {before after : Document} {name : String} {u : Update}, p before →
    before.get? idField = some (.string name) → (∀ field ∈ StepRecord.jobFields, u.Spares field) →
    u.apply before = .ok after → p after
  seed : ∀ {name : String} {initial : Int64} {note : String} {d : Document},
    (Counter.seeding initial note).create (.byId (.string name)) = .ok d → p d

/-- Whatever an operation requests, the collection goes on to have such a property. -/
theorem Holds.poses {site : Site} {p : Document → Prop} (hp : IsKept p) (hs : s.WellFormed)
    (h : s.Holds p collection) {request : Request} (hrequest : site.Poses request) :
    (s.answer request).2.Holds p collection := by
  have hselected : ∀ {name : String} {before : Document},
      (Filter.byId (.string name)).selects before = true →
        before.get? idField = some (.string name) :=
    fun hsel => (Filter.selects_byId_iff (Json.exact_string _)).1 hsel
  cases hrequest with
  | insertOne r => exact insertOne hs h (hp.record r)
  | insertMany rs =>
    refine insertMany hs h fun d hd => ?_
    obtain ⟨r, -, rfl⟩ := List.mem_map.1 hd
    exact hp.record r
  | find f => rw [Store.answer, snd_find]; exact h
  | count f => rw [Store.answer, snd_count]; exact h
  | update id version r hid hversion =>
    refine updateFirst hs h fun before after hbefore hsel happly => ?_
    have hid := ((Filter.selects_byId_and_iff (Json.exact_ofInt64 id)
      (Json.exact_ofInt32 version)).1 hsel).1
    exact hp.update hbefore hid happly
  | read name => rw [Store.answer, snd_find]; exact h
  | increment name =>
    refine findAndModify hs h (fun _ _ hbefore hsel happly => ?_)
      fun hup => absurd hup Bool.false_ne_true
    have hspares : ∀ field ∈ StepRecord.jobFields, (Update.empty.andInc valueField 1).Spares field :=
      StepRecord.forall_jobFields.2 ⟨⟨rfl, by decide⟩, rfl, by decide⟩
    exact hp.counter hbefore (hselected hsel) hspares happly
  | swap name value next =>
    refine updateFirst hs h fun _ _ hbefore hsel happly => ?_
    have hid := ((Filter.selects_byId_and_iff (Json.exact_string name)
      (Json.exact_ofInt64 value)).1 hsel).1
    have hspares : ∀ field ∈ StepRecord.jobFields,
        (Update.empty.andSet valueField (.ofInt64 next)).Spares field :=
      StepRecord.forall_jobFields.2 ⟨⟨rfl, List.not_mem_nil⟩, rfl, List.not_mem_nil⟩
    exact hp.counter hbefore hid hspares happly
  | seed name initial note =>
    refine findAndModify hs h (fun _ _ hbefore hsel happly => ?_) fun _ d hcreate => hp.seed hcreate
    have hspares : ∀ field ∈ StepRecord.jobFields, (Counter.seeding initial note).Spares field :=
      StepRecord.forall_jobFields.2 ⟨⟨rfl, List.not_mem_nil⟩, rfl, List.not_mem_nil⟩
    exact hp.counter hbefore (hselected hsel) hspares happly

/-- Operations of any clients keep it as well. -/
theorem Holds.run {site : Site} {p : Document → Prop} (hp : IsKept p) {first : Store}
    (hfirst : first.Reachable) (h : first.Holds p collection) (moves : List (Move Command)) :
    ((World.ofStore first).run site.program moves).store.WellFormed ∧
      ((World.ofStore first).run site.program moves).store.Holds p collection := by
  refine (World.run_asking (fun command => Operation.asks_program command.2)
    (motive := fun s => s.WellFormed ∧ s.Holds p collection) ?_ ?_ (w := World.ofStore first)
    (by simp [World.ofStore]) ⟨hfirst.wellFormed, h⟩ moves).2
  · exact fun s request h hrequest => ⟨h.1.answer request, h.2.poses hp h.1 hrequest⟩
  · exact fun s s' h halike => ⟨halike.wellFormed h.1, h.2.of_alike halike⟩

/-- A step stays one, and so does a counter. -/
theorem isKept_isStored : IsKept IsStored where
  record r := .inl ⟨r, rfl⟩
  update hbefore hid happly := by
    obtain ⟨b, rfl, -⟩ := exists_record hbefore hid
    rw [StepRecord.apply_update] at happly
    exact .inl ⟨_, (Except.ok.inj happly).symm⟩
  counter _ hid _ happly := .inr ⟨_, (Update.get?_id_of_apply happly).trans hid⟩
  seed hcreate := .inr ⟨_, Update.get?_id_of_create hcreate⟩

end Store

end StepLedger

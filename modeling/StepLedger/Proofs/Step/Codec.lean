import StepLedger.Proofs.Calendar.Reading
import StepLedger.Proofs.Document.Apply
import StepLedger.Proofs.Document.Selects
import StepLedger.Step.Record

/-!
# Stored steps read back

A document written for a record is decoded as that record, with the nanoseconds of its times carried
(`StepRecord.ofDocument_toDocument`), and the update of a record turns the document of an earlier
version into that of the record with the name, job and id that were there (`StepRecord.apply_update`).
-/

namespace StepLedger

/-- The execution with at most `cap` characters of its exit description. -/
def StepExecution.cut (e : StepExecution) (cap : Nat) : StepExecution :=
  { e with exit := e.exit.withDescription (cutDescription e.exit.description cap) }

theorem length_cutDescription (description : String) (cap : Nat) :
    (cutDescription description cap).length ≤ cap := by
  rw [cutDescription, String.length_ofList]
  exact List.length_take_le cap description.toList

/-- Nothing is cut off what is short enough. -/
theorem StepExecution.cut_eq_self_iff {e : StepExecution} {cap : Nat} :
    e.cut cap = e ↔ e.exit.description.length ≤ cap := by
  constructor
  · intro h
    have hdescription : cutDescription e.exit.description cap = e.exit.description :=
      congrArg (·.exit.description) h
    rw [← hdescription]
    exact length_cutDescription _ cap
  · intro h
    have hdescription : cutDescription e.exit.description cap = e.exit.description := by
      rw [cutDescription, List.take_of_length_le (String.length_toList ▸ h), String.ofList_toList]
    rw [cut, hdescription]
    rfl

/-! ## Times -/

/-- The execution with the nanoseconds of its times carried. -/
def StepExecution.carried (e : StepExecution) : StepExecution :=
  { e with
    startTime := e.startTime.map Calendar.Instant.carried
    endTime := e.endTime.map Calendar.Instant.carried
    lastUpdated := e.lastUpdated.map Calendar.Instant.carried }

/-- The times have nanoseconds of a leap second only where there can be one. -/
def StepExecution.Proper (e : StepExecution) : Prop :=
  (∀ time ∈ e.startTime, time.Proper) ∧ (∀ time ∈ e.endTime, time.Proper) ∧
    ∀ time ∈ e.lastUpdated, time.Proper

theorem Calendar.Instant.map_carried_eq_self_iff {time : Option Calendar.Instant} :
    time.map Calendar.Instant.carried = time ↔ ∀ i ∈ time, i.Proper := by
  cases time with
  | none => simp
  | some i => simp [Calendar.Instant.carried_eq_self_iff]

/-- Where there can be a leap second, nothing is carried, and a name that it has already changes
nothing. -/
theorem StepExecution.named_carried_eq_self_iff {e : StepExecution} {name : Option String} :
    { e.carried with name } = e ↔ e.name = name ∧ e.Proper := by
  simp only [Proper, ← Calendar.Instant.map_carried_eq_self_iff]
  constructor
  · intro h
    exact ⟨(congrArg StepExecution.name h).symm, congrArg startTime h, congrArg endTime h,
      congrArg lastUpdated h⟩
  · rintro ⟨rfl, hstart, hend, hlast⟩
    rw [carried, hstart, hend, hlast]

theorem StepExecution.carried_eq_self_iff {e : StepExecution} : e.carried = e ↔ e.Proper :=
  named_carried_eq_self_iff.trans (and_iff_right rfl)

/-- Counters may be stored if none of them is above the limit. -/
theorem Counters.check_eq_ok {c : Counters} :
    c.check = .ok () ↔ ∀ counter ∈ c.named, counter.2 ≤ limit := by
  unfold Counters.check
  split
  · next name value hfind =>
    refine ⟨nofun, fun h => ?_⟩
    have hle := h _ (List.mem_of_find?_eq_some hfind)
    have hlt : limit < value := by simpa using List.find?_some hfind
    exact absurd hlt (UInt32.not_lt.2 hle)
  · next hfind =>
    rw [List.find?_eq_none] at hfind
    exact ⟨fun _ counter hm => UInt32.not_lt.1 (by simpa using hfind counter hm), fun _ => rfl⟩

/-! ## Values -/

namespace Json

theorem toInt64_ofInt64 (n : Int64) : (Json.ofInt64 n).value.toInt64 = .ok n :=
  Value.toInt64_ofInt64 n

theorem toInt32_ofInt32 (n : Int32) : (Json.ofInt32 n).value.toInt32 = .ok n :=
  Value.toInt32_ofInt32 n

theorem toUInt32_ofUInt32 (n : UInt32) : (Json.ofUInt32 n).value.toUInt32 = .ok n :=
  Value.toUInt32_ofUInt32 n

theorem toText_string (s : String) : (Json.string s).value.toText = .ok s := rfl

theorem toInstant_text (i : Calendar.Instant) :
    (Json.string i.text).value.toInstant = .ok i.carried := by
  show (Calendar.Instant.ofText i.text).mapError DecodeError.time = .ok i.carried
  rw [Calendar.Instant.ofText_text]
  rfl

end Json

theorem BatchStatus.decode_name (status : BatchStatus) :
    BatchStatus.decode (Json.string status.name).value = .ok status := by
  cases status <;> rfl

namespace StepRecord

theorem toInstant_ofTime? (time : Option Calendar.Instant) :
    (ofTime? time).value.toOption Json.Value.toInstant =
      .ok (time.map Calendar.Instant.carried) := by
  cases time with
  | none => rfl
  | some i =>
    show ((Json.string i.text).value.toInstant).map some = .ok (some i.carried)
    rw [Json.toInstant_text]
    rfl

/-! ## Fields -/

/-- The fields of a record by name. -/
def names : List String :=
  [idField, versionField, nameField, parentField, parentInstanceField, "startTime", "endTime",
    "status", "commitCount", "readCount", "filterCount", "writeCount", "exitCode",
    "exitDescription", "readSkipCount", "writeSkipCount", "processSkipCount", "rollbackCount",
    "lastUpdated"]

theorem names_layout (r : StepRecord) : r.layout.map (·.1) = names := rfl

theorem nodup_names : names.Nodup := by decide

theorem get?_toDocument (r : StepRecord) (name : String) :
    r.toDocument.get? name = (Entries.find? name r.layout).map Json.value :=
  Document.get?_ofList (by rw [names_layout]; exact nodup_names) name

theorem get?_toDocument_of_mem {r : StepRecord} {name : String} {value : Json}
    (h : (name, value) ∈ r.layout) : r.toDocument.get? name = some value.value := by
  rw [get?_toDocument, Entries.find?_eq_some_of_mem (by rw [names_layout]; exact nodup_names) h]
  rfl

theorem field?_toDocument {r : StepRecord} {name : String} {value : Json} {α : Type} {a : α}
    {decode : Json.Value → Except DecodeError α} (hm : (name, value) ∈ r.layout)
    (h : decode value.value = .ok a) : r.toDocument.field? name decode = .ok (some a) :=
  Document.field?_eq_ok.2 (.inr ⟨_, a, get?_toDocument_of_mem hm, h, rfl⟩)

/-- The record with the nanoseconds of its times carried. -/
def carried (r : StepRecord) : StepRecord :=
  { r with
    startTime := r.startTime.carried
    endTime := r.endTime.map Calendar.Instant.carried
    lastUpdated := r.lastUpdated.map Calendar.Instant.carried }

theorem ofTime?_carried (time : Option Calendar.Instant) :
    ofTime? (time.map Calendar.Instant.carried) = ofTime? time := by
  cases time with
  | none => rfl
  | some i => exact congrArg Json.string i.text_carried

/-- Times are laid out as if their nanoseconds had been carried. -/
theorem toDocument_carried (r : StepRecord) : r.carried.toDocument = r.toDocument := by
  refine congrArg Document.ofList ?_
  simp only [layout, carried, Calendar.Instant.text_carried, ofTime?_carried]

/-- What is written is read back with the nanoseconds of its times carried. -/
theorem ofDocument_toDocument (r : StepRecord) : ofDocument r.toDocument = .ok r.carried := by
  rw [ofDocument,
    field?_toDocument (by simp [layout]) (Json.toUInt32_ofUInt32 r.counters.commit), Except.ok_bind,
    field?_toDocument (by simp [layout]) (toInstant_ofTime? r.endTime), Except.ok_bind,
    field?_toDocument (by simp [layout]) (Json.toText_string r.exit.code), Except.ok_bind,
    field?_toDocument (by simp [layout]) (Json.toText_string r.exit.description), Except.ok_bind,
    field?_toDocument (by simp [layout]) (Json.toUInt32_ofUInt32 r.counters.filter), Except.ok_bind,
    field?_toDocument (by simp [layout]) (Json.toInt64_ofInt64 r.id), Except.ok_bind,
    field?_toDocument (by simp [layout]) (toInstant_ofTime? r.lastUpdated), Except.ok_bind,
    field?_toDocument (by simp [layout]) (Json.toText_string r.name), Except.ok_bind,
    field?_toDocument (by simp [layout]) (Json.toInt64_ofInt64 r.job.id), Except.ok_bind,
    field?_toDocument (by simp [layout]) (Json.toInt64_ofInt64 r.job.jobInstance), Except.ok_bind,
    field?_toDocument (by simp [layout]) (Json.toUInt32_ofUInt32 r.counters.processSkip), Except.ok_bind,
    field?_toDocument (by simp [layout]) (Json.toUInt32_ofUInt32 r.counters.read), Except.ok_bind,
    field?_toDocument (by simp [layout]) (Json.toUInt32_ofUInt32 r.counters.readSkip), Except.ok_bind,
    field?_toDocument (by simp [layout]) (Json.toUInt32_ofUInt32 r.counters.rollback), Except.ok_bind,
    field?_toDocument (by simp [layout]) (Json.toInstant_text r.startTime), Except.ok_bind,
    field?_toDocument (by simp [layout]) (BatchStatus.decode_name r.status), Except.ok_bind,
    field?_toDocument (by simp [layout]) (Json.toInt32_ofInt32 r.version), Except.ok_bind,
    field?_toDocument (by simp [layout]) (Json.toUInt32_ofUInt32 r.counters.write), Except.ok_bind,
    field?_toDocument (by simp [layout]) (Json.toUInt32_ofUInt32 r.counters.writeSkip), Except.ok_bind]
  simp only [DecodeError.require, Except.ok_bind]
  rfl

theorem mapM_ofDocument (rs : List StepRecord) :
    (rs.map toDocument).mapM ofDocument = .ok (rs.map carried) := by
  induction rs with
  | nil => rfl
  | cons r rs ih =>
    rw [List.map_cons, List.mapM_cons, ofDocument_toDocument, ih]
    rfl

/-- Records with the same document are the same when carried. -/
theorem toDocument_inj {r r' : StepRecord} (h : r.toDocument = r'.toDocument) :
    r.carried = r'.carried := by
  have hread := ofDocument_toDocument r
  rw [h, ofDocument_toDocument] at hread
  exact (Except.ok.inj hread).symm

/-- Where there can be a leap second, nothing is carried. -/
theorem carried_eq_self_iff {r : StepRecord} : r.carried = r ↔ (r.toExecution r.job).Proper := by
  rw [← StepExecution.carried_eq_self_iff]
  constructor
  · intro h
    exact congrArg (fun read : StepRecord => read.toExecution r.job) h
  · intro h
    have hstart : r.startTime.carried = r.startTime :=
      Option.some.inj (congrArg StepExecution.startTime h)
    have hend : r.endTime.map Calendar.Instant.carried = r.endTime :=
      congrArg StepExecution.endTime h
    have hlast : r.lastUpdated.map Calendar.Instant.carried = r.lastUpdated :=
      congrArg StepExecution.lastUpdated h
    rw [carried, hstart, hend, hlast]

/-- Documents show the ids of the records. -/
theorem map_id_of_map_toDocument {rs rs' : List StepRecord}
    (h : rs.map toDocument = rs'.map toDocument) : rs.map (·.id) = rs'.map (·.id) := by
  have hread := mapM_ofDocument rs
  rw [h, mapM_ofDocument] at hread
  have hids := congrArg (List.map id) (Except.ok.inj hread)
  rw [List.map_map, List.map_map] at hids
  exact hids.symm

/-! ## Updates -/

/-- A record with what is fixed when a step is first saved taken from another. -/
def laidOver (r before : StepRecord) : StepRecord :=
  { r with id := before.id, name := before.name, job := before.job }

theorem toExecution_laidOver (r before : StepRecord) (job other : JobExecution) :
    (r.laidOver before).toExecution job = { r.toExecution other with
      id := some before.id
      name := some before.name
      job := job } := rfl

/-- The fields of a record are either fixed or written by every update. -/
theorem filter_layout_laidOver (r before : StepRecord) :
    ((r.laidOver before).layout.filter fun field => mutableFields.contains field.1) =
        r.layout.filter (fun field => mutableFields.contains field.1) ∧
      ((r.laidOver before).layout.filter fun field => !mutableFields.contains field.1) =
        before.layout.filter fun field => !mutableFields.contains field.1 := by
  constructor <;> simp [layout, laidOver, mutableFields, idField, versionField, nameField, parentField,
    parentInstanceField]

theorem get?_laidOver_of_mutable {name : String} (h : mutableFields.contains name = true)
    (r before : StepRecord) : (r.laidOver before).toDocument.get? name = r.toDocument.get? name := by
  have hleft := Entries.find?_filter mutableFields.contains name (r.laidOver before).layout
  have hright := Entries.find?_filter mutableFields.contains name r.layout
  rw [if_pos h] at hleft hright
  rw [get?_toDocument, get?_toDocument, ← hleft, ← hright, (filter_layout_laidOver r before).1]

theorem get?_laidOver_of_not_mutable {name : String} (h : mutableFields.contains name = false)
    (r before : StepRecord) :
    (r.laidOver before).toDocument.get? name = before.toDocument.get? name := by
  have hleft := Entries.find?_filter (!mutableFields.contains ·) name (r.laidOver before).layout
  have hright := Entries.find?_filter (!mutableFields.contains ·) name before.layout
  rw [h] at hleft hright
  rw [get?_toDocument, get?_toDocument]
  simp only [Bool.not_false, if_true] at hleft hright
  rw [← hleft, ← hright, (filter_layout_laidOver r before).2]

/-- An update writes a field for each of the mutable names. -/
theorem isSome_get?_of_mutable {name : String} (h : mutableFields.contains name = true)
    (r : StepRecord) : (r.toDocument.get? name).isSome := by
  have hsub : ∀ name ∈ mutableFields, name ∈ names := by decide
  have hm : name ∈ r.layout.map (·.1) := by
    rw [names_layout]
    exact hsub name (by simpa using h)
  obtain ⟨⟨_, value⟩, hfield, rfl⟩ := List.mem_map.1 hm
  rw [get?_toDocument_of_mem hfield]
  rfl

/-- An update sets no key. -/
theorem get?_id_update (r : StepRecord) : r.update.set.get? idField = none := by
  show (r.toDocument.restrict mutableFields).get? idField = none
  rw [Document.get?_restrict]
  rfl

/-- Records that differ in what is fixed make the same update. -/
theorem update_laidOver (r before : StepRecord) : (r.laidOver before).update = r.update := by
  refine congrArg (fun set => { Update.empty with set }) (Document.ext_get? fun name => ?_)
  rw [Document.get?_restrict, Document.get?_restrict]
  split
  · next hmutable => exact get?_laidOver_of_mutable hmutable r before
  · rfl

theorem isEmpty_update (r : StepRecord) : r.update.isEmpty = false := by
  have hmutable : mutableFields.contains versionField = true := by decide
  obtain ⟨value, hvalue⟩ := Option.isSome_iff_exists.1 (isSome_get?_of_mutable hmutable r)
  have hset : r.update.set.get? versionField = some value := by
    show (r.toDocument.restrict mutableFields).get? versionField = some value
    rw [Document.get?_restrict, if_pos hmutable, hvalue]
  exact Update.isEmpty_eq_false hset

/-- The update of a record makes the document of an earlier version that of the record, with the id,
the name and the job that were there. -/
theorem apply_update (r before : StepRecord) :
    r.update.apply before.toDocument = .ok (r.laidOver before).toDocument := by
  have happly := Update.apply_set (get?_id_update r) before.toDocument
  refine happly.trans (congrArg Except.ok (Document.ext_get? fun name => ?_))
  rw [Document.get?_overlay]
  show ((r.toDocument.restrict mutableFields).get? name).or _ = _
  rw [Document.get?_restrict]
  cases h : mutableFields.contains name with
  | true =>
    obtain ⟨value, hvalue⟩ := Option.isSome_iff_exists.1 (isSome_get?_of_mutable h r)
    rw [get?_laidOver_of_mutable h, if_pos rfl, hvalue, Option.some_or]
  | false => rw [get?_laidOver_of_not_mutable h, if_neg (by simp), Option.none_or]

/-! ## Executions -/

theorem need_eq_ok {α : Type} {absence : ArgumentError} {o : Option α} {a : α} :
    StepExecution.need absence o = .ok a ↔ o = some a := by
  cases o <;> simp [StepExecution.need]

/-- What is stored of an execution is all of it, but for the end of a long exit description. -/
theorem ofExecution_eq_ok {e : StepExecution} {cap : Nat} {r : StepRecord}
    (h : ofExecution e cap = .ok r) : r.job = e.job ∧ r.toExecution e.job = e.cut cap := by
  obtain ⟨required, hrequired, h⟩ := Except.bind_eq_ok.1 h
  obtain ⟨name, hname, hrequired⟩ := Except.bind_eq_ok.1 hrequired
  obtain ⟨startTime, hstart, hrequired⟩ := Except.bind_eq_ok.1 hrequired
  obtain ⟨status, hstatus, hrequired⟩ := Except.bind_eq_ok.1 hrequired
  obtain ⟨-, -, hrequired⟩ := Except.bind_eq_ok.1 hrequired
  cases hrequired
  rw [need_eq_ok] at hname hstart hstatus
  obtain ⟨id, version, _, job, _, endTime, _, exit, counters, lastUpdated⟩ := e
  cases hname
  cases hstart
  cases hstatus
  cases id with
  | none => cases h
  | some id =>
    cases version with
    | none => cases h
    | some version => cases h; exact ⟨rfl, rfl⟩

/-- Only what may be stored becomes a record. -/
theorem check_of_ofExecution {e : StepExecution} {cap : Nat} {r : StepRecord}
    (h : ofExecution e cap = .ok r) : r.counters.check = .ok () := by
  have hcounters : r.counters = e.counters :=
    congrArg StepExecution.counters (ofExecution_eq_ok h).2
  obtain ⟨required, hrequired, -⟩ := Except.bind_eq_ok.1 h
  obtain ⟨_, -, hrequired⟩ := Except.bind_eq_ok.1 hrequired
  obtain ⟨_, -, hrequired⟩ := Except.bind_eq_ok.1 hrequired
  obtain ⟨_, -, hrequired⟩ := Except.bind_eq_ok.1 hrequired
  obtain ⟨_, hcheck, -⟩ := Except.bind_eq_ok.1 hrequired
  rw [hcounters]
  exact hcheck

/-- The execution of a record becomes that record again, under the job that the caller named. -/
theorem ofExecution_toExecution {r : StepRecord} (h : r.counters.check = .ok ()) {cap : Nat}
    (hcap : r.exit.description.length ≤ cap) (job : JobExecution) :
    ofExecution (r.toExecution job) cap = .ok { r with job := job } := by
  have hrequired : (r.toExecution job).required = .ok ⟨r.name, r.startTime, r.status⟩ := by
    show (r.counters.check >>= fun _ => Except.ok _) = _
    rw [h]
    rfl
  have hcut : (r.toExecution job).cut cap = r.toExecution job := StepExecution.cut_eq_self_iff.2 hcap
  have hexit : r.exit.withDescription (cutDescription r.exit.description cap) = r.exit :=
    congrArg StepExecution.exit hcut
  rw [ofExecution, hrequired, Except.ok_bind]
  show Except.ok { r with exit := r.exit.withDescription _, job := job } = _
  exact congrArg (fun exit => Except.ok { r with exit := exit, job := job }) hexit

/-- Under another instance of a job only the field for that is another. -/
theorem get?_toDocument_of_job (r : StepRecord) {job : JobExecution} (hjob : job.id = r.job.id)
    (name : String) : ({ r with job := job } : StepRecord).toDocument.get? name =
      if name = parentInstanceField then some (Json.ofInt64 job.jobInstance).value
      else r.toDocument.get? name := by
  by_cases heq : name = parentInstanceField
  · rw [if_pos heq, heq]
    exact get?_toDocument_of_mem (show (_, Json.ofInt64 job.jobInstance) ∈ _ by simp [layout])
  · have hothers : ∀ field : String × Json, field.1 ≠ parentInstanceField →
        (field ∈ ({ r with job := job } : StepRecord).layout ↔ field ∈ r.layout) := by
      intro field hfield
      have hne : ∀ value, field ≠ (parentInstanceField, value) := fun value h => hfield (h ▸ rfl)
      simp only [layout, hjob, List.mem_cons, hne, false_or]
    have hnodup : ∀ r : StepRecord, (r.layout.map (·.1)).Nodup := fun r => by
      rw [names_layout]
      exact nodup_names
    rw [if_neg heq, get?_toDocument, get?_toDocument]
    refine congrArg (Option.map Json.value) (Option.ext fun value => ?_)
    rw [Entries.find?_eq_some_iff_mem (hnodup _), Entries.find?_eq_some_iff_mem (hnodup r)]
    exact hothers (name, value) heq

end StepRecord

end StepLedger

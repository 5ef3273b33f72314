import StepLedger.Proofs.CommandLine.Numbering
import StepLedger.Proofs.Json.Indenting
import StepLedger.Proofs.Repository.Custody
import StepLedger.Proofs.Step.Lossless

/-!
# Looking at a step from the command line

What the program prints of a step is made of the stored record by way of an execution, under the job
that was typed. `shows_stored` says that the printed text is a JSON object with the fields of the stored
document, all as they are stored but for the instance of the job, which is as it was typed.
-/

namespace StepLedger

/-- The text of a document over several lines is read back as that document. -/
theorem Document.ofText?_renderIndented {d : Document}
    (h : d.All fun value => value.Whole ∧ value.Fits (Json.Tree.maxNesting - 1)) :
    Json.ofText? (d.toJson.value.renderIndented 0 ++ Json.Value.newLine 0) = some d.toJson := by
  have hwhole : d.Whole := fun name value hvalue => (h name value hvalue).1
  have hfits : d.toJson.value.Fits Json.Tree.maxNesting := by
    rw [Document.toJson, Json.Value.Fits, Json.Value.fitFields_iff]
    exact ⟨by decide, fun field hfield => (h field.1 field.2 (Document.get?_of_mem hfield)).2⟩
  exact Json.ofText?_renderIndented (show d.toJson.value.Whole from hwhole.object) hfits 0

namespace CommandLine

open Store

variable {r : Repository} {record : StepRecord} {job : JobExecution}

/-! ## The text of a step -/

/-- What is printed of a record. -/
def printed (record : StepRecord) : String :=
  String.ofList (record.toDocument.toJson.value.renderIndented 0) ++ "\n"

theorem toList_printed (record : StepRecord) : (printed record).toList =
    record.toDocument.toJson.value.renderIndented 0 ++ Json.Value.newLine 0 := by
  rw [printed, String.toList_append, String.toList_ofList]
  rfl

theorem ofText?_printed (record : StepRecord) :
    Json.ofText? (printed record).toList = some record.toDocument.toJson := by
  rw [toList_printed]
  exact Document.ofText?_renderIndented
    (Document.all_ofList fun _ hfield => StepRecord.plain_of_mem_layout hfield _)

/-- What is printed of a record under another instance of its job is read as a document that differs in
nothing but the field for that. -/
theorem exists_shown (record : StepRecord) {job : JobExecution} (hjob : record.job.id = job.id) :
    ∃ shown : Document,
      Json.ofText? (printed { record with job := job }).toList = some shown.toJson ∧
      (shown.fields.map (·.1)).Perm StepRecord.names ∧
      (∀ name, shown.get? name = if name = StepRecord.parentInstanceField
        then some (Json.ofInt64 job.jobInstance).value else record.toDocument.get? name) ∧
      (shown = record.toDocument ↔ record.toDocument.get? StepRecord.parentInstanceField =
        some (Json.ofInt64 job.jobInstance).value) := by
  have hfields := record.get?_toDocument_of_job hjob.symm
  refine ⟨_, ofText?_printed _, StepRecord.perm_names_toDocument _, hfields, fun heq => ?_,
    fun heq => ?_⟩
  · rw [← heq, hfields, if_pos rfl]
  · refine Document.ext_get? fun name => ?_
    rw [hfields]
    split
    · next hname => rw [hname, heq]
    · rfl

/-- An execution that has been read is printed as the record was written. -/
theorem shownStep_carried (hcheck : record.counters.check = .ok ()) (job : JobExecution) :
    shownStep (record.toExecution job).carried = .ok (printed { record with job := job }) := by
  have hrecord : StepRecord.ofExecution (record.toExecution job).carried
      (record.toExecution job).carried.exit.description.length =
        .ok ({ record with job := job } : StepRecord).carried :=
    StepRecord.ofExecution_toExecution (r := record.carried) hcheck (Nat.le_refl _) job
  rw [shownStep, hrecord, printed, ← StepRecord.toDocument_carried]
  rfl

/-! ## The command -/

theorem print_of_returned {e : StepExecution} {text : String} {step : Int64}
    (h : ((r.config.steps rounds).get job step).run Store.answer r.store = (.returned e, r.store))
    (htext : shownStep e = .ok text) : print r job step = (.success text, r) := by
  rw [print, Repository.run_of_store h]
  simp only [result, Except.ok_bind, htext]

theorem print_of_failed {error : StoreError} {step : Int64}
    (h : ((r.config.steps rounds).get job step).run Store.answer r.store = (.failed error, r.store)) :
    print r job step = (.failure error, r) := by
  rw [print, Repository.run_of_store h]
  rfl

/-- A step that is stored for the run of the job is printed, under the job that was typed, and no
other. -/
theorem print_cases {directory : String} {value : Int64} {records : List StepRecord}
    (hs : r.store.Durable directory) (hledger : Ledger r.config.site r.store value records)
    (hname : isName r.config.stepCollection = true)
    (hchecks : ∀ record ∈ records, record.counters.check = .ok ()) (job : JobExecution) (step : Int64) :
    (∃ record ∈ records, record.id = step ∧ record.job.id = job.id ∧
      print r job step = (.success (printed { record with job := job }), r)) ∨
    (∀ record ∈ records, record.id = step → record.job.id ≠ job.id) ∧
      print r job step = (.failure (.notFound (.stepOfJob step.toInt job.id.toInt)), r) := by
  have hcheck : r.store.check r.config.stepCollection = .ok () := check_eq_ok.2 ⟨hs.opened, hname⟩
  have hdocuments : (r.store.view r.config.stepCollection).documents =
      records.map StepRecord.toDocument := hledger.documents
  by_cases hstored : ∃ record ∈ records, record.id = step ∧ record.job.id = job.id
  · obtain ⟨record, hrecord, rfl, hjob⟩ := hstored
    have hmem : record.toDocument ∈ (r.store.view r.config.stepCollection).documents := by
      rw [hdocuments]
      exact List.mem_map_of_mem hrecord
    have hget := run_get (c := r.config.steps rounds) hs.wellFormed hcheck hmem hjob.symm
    exact .inl ⟨record, hrecord, rfl, hjob,
      print_of_returned hget (shownStep_carried (hchecks record hrecord) job)⟩
  · have hnone : ∀ record ∈ records, record.id = step → record.job.id ≠ job.id :=
      fun record hrecord hid hjob => hstored ⟨record, hrecord, hid, hjob⟩
    refine .inr ⟨hnone, print_of_failed (run_get_missing (c := r.config.steps rounds) hcheck ?_)⟩
    intro d hd hid hparent
    rw [show (r.store.view (r.config.steps rounds).collection).documents = _ from hdocuments] at hd
    obtain ⟨record, hrecord, rfl⟩ := List.mem_map.1 hd
    exact hnone record hrecord (get?_id_toDocument_iff.1 hid) (get?_parent_toDocument_iff.1 hparent)

/-! ## Runs -/

section

variable {directory : String} {w : World StepLedger.Command Reply}
  (hw : w.WritesIn Config.default.site directory) {disk : Disk} (hdisk : w.store.FiledOn disk)
include hw hdisk

/-- What comes of asking for a step. The disk stays as it is. -/
theorem run_show {arguments : List String} {strategy : Sequence.Strategy}
    {job step jobInstance : Int64} (hread : Arguments.ofList arguments =
      .ok ⟨directory, Config.defaultSequenceCollection, strategy, .print job step jobInstance⟩) :
    ∃ records : List StepRecord, disk.stored directory Config.defaultStepCollection =
        records.map StepRecord.toDocument ∧ (records.map (·.id)).Nodup ∧
      ((∃ record ∈ records, record.id = step ∧ record.job.id = job ∧
          run disk arguments = (.success (printed { record with job := ⟨job, jobInstance⟩ }), disk)) ∨
        (∀ record ∈ records, record.id = step → record.job.id ≠ job) ∧
          run disk arguments = (.failure (.notFound (.stepOfJob step.toInt job.toInt)), disk)) := by
  let sought : Arguments :=
    ⟨directory, Config.defaultSequenceCollection, strategy, .print job step jobInstance⟩
  have hname : isName Config.defaultStepCollection = true := by decide
  have hvalid : sought.config.validate = .ok () :=
    validate_config (show isName Config.defaultSequenceCollection = true by decide)
      (show Config.defaultSequenceCollection ≠ Config.defaultStepCollection by decide)
  obtain ⟨value, records, hstored, hchecks, hopens⟩ := hw.opens_again hdisk hname
  obtain ⟨s, hopen, hon, hdurable, hledger⟩ := hopens sought.config hvalid rfl rfl
  have hrun : ∀ {transcript : Transcript},
      print ⟨sought.config, s⟩ ⟨job, jobInstance⟩ step = (transcript, ⟨sought.config, s⟩) →
      run disk arguments = (transcript, disk) := by
    intro transcript hprint
    rw [run_of_opened hread hopen hprint, hon]
  refine ⟨records, hstored, hledger.nodup, ?_⟩
  obtain ⟨record, hrecord, hid, hjob, hprint⟩ | ⟨hnone, hprint⟩ :=
    print_cases (r := ⟨sought.config, s⟩) hdurable hledger hname hchecks ⟨job, jobInstance⟩ step
  · exact .inl ⟨record, hrecord, hid, hjob, hrun hprint⟩
  · exact .inr ⟨hnone, hrun hprint⟩

/-- What the program prints of a step. Every step can be asked for. In a directory that repositories with
the usual names have written, the program changes nothing, and it succeeds exactly if a step is stored
under the id and for the run of the job that were typed. What it prints then is a JSON object with the
fields of the document that is stored under the id, all of them as they are stored but for the instance
of the job, which is as it was typed. -/
theorem shows_stored (strategy : Sequence.Strategy) (job step jobInstance : Int64) :
    let sought : Arguments :=
      ⟨directory, Config.defaultSequenceCollection, strategy, .print job step jobInstance⟩
    let stored := disk.stored directory Config.defaultStepCollection
    (directory ≠ "" → Arguments.ofList (Arguments.typed directory Config.defaultSequenceCollection
      strategy ["show", attached "instance" (shownInt jobInstance.toInt), "--", shownInt job.toInt,
        shownInt step.toInt]) = .ok sought) ∧
    ∀ arguments, Arguments.ofList arguments = .ok sought →
      (run disk arguments).2 = disk ∧
      ((run disk arguments).1.code = 0 ↔ ∃ d ∈ stored,
        d.get? idField = some (Json.ofInt64 step).value ∧
        d.get? StepRecord.parentField = some (Json.ofInt64 job).value) ∧
      ∀ d ∈ stored, d.get? idField = some (Json.ofInt64 step).value →
        (run disk arguments).1.code = 0 → ∃ shown : Document,
          Json.ofText? (run disk arguments).1.output.toList = some shown.toJson ∧
          (shown.fields.map (·.1)).Perm StepRecord.names ∧
          (∀ name, shown.get? name = if name = StepRecord.parentInstanceField
            then some (Json.ofInt64 jobInstance).value else d.get? name) ∧
          (shown = d ↔
            d.get? StepRecord.parentInstanceField = some (Json.ofInt64 jobInstance).value) := by
  intro sought stored
  refine ⟨fun hnamed => Arguments.ofList_typed hnamed (by decide)
    (Command.ofList_show job step jobInstance) _ strategy, fun arguments hread => ?_⟩
  obtain ⟨records, hstored, hnodup, hcases⟩ := run_show hw hdisk hread
  have hmem : ∀ d, d ∈ stored ↔ ∃ record ∈ records, record.toDocument = d := by
    intro d
    rw [show stored = records.map StepRecord.toDocument from hstored, List.mem_map]
  obtain ⟨record, hrecord, hid, hjob, hrun⟩ | ⟨hnone, hrun⟩ := hcases
  · have hfound : ∃ d ∈ stored, d.get? idField = some (Json.ofInt64 step).value ∧
        d.get? StepRecord.parentField = some (Json.ofInt64 job).value :=
      ⟨_, (hmem _).2 ⟨record, hrecord, rfl⟩, get?_id_toDocument_iff.2 hid,
        get?_parent_toDocument_iff.2 hjob⟩
    rw [hrun]
    refine ⟨rfl, ⟨fun _ => hfound, fun _ => rfl⟩, fun d hd hdid _ => ?_⟩
    -- no other document is stored under the id
    obtain ⟨other, hother, rfl⟩ := (hmem d).1 hd
    obtain rfl : other = record := List.inj_on_of_nodup_map hnodup hother hrecord
      ((get?_id_toDocument_iff.1 hdid).trans hid.symm)
    exact exists_shown other hjob
  · have hone : ¬ (1 : UInt32) = 0 := by decide
    rw [hrun]
    refine ⟨rfl, ⟨fun hzero => absurd hzero hone, ?_⟩, fun _ _ _ hzero => absurd hzero hone⟩
    rintro ⟨d, hd, hdid, hparent⟩
    obtain ⟨record, hrecord, rfl⟩ := (hmem d).1 hd
    exact absurd (get?_parent_toDocument_iff.1 hparent)
      (hnone record hrecord (get?_id_toDocument_iff.1 hdid))

end

/-- The store of a repository that is opened in the empty directory of a drawer. -/
def shelf : Store := (Config.shelf.seedSteps.run Store.answer (.cabinet none)).2

/-- A step is saved there. -/
def shelved : World StepLedger.Command Reply :=
  (World.ofStore shelf).run Config.default.site.program
    [.start (Config.shelf.client 1, .save .opening), .ask 0, .ask 0]

/-- The disk after that. -/
def shelfDisk : Disk := shelved.store.diskOr (Archive.drawer none).disk

theorem writesIn_shelved : shelved.WritesIn Config.default.site "data" := by
  have hopen : Repository.ofConfig (Archive.drawer none).disk .shelf =
      (.returned ⟨.shelf, shelf⟩, shelf.diskOr (Archive.drawer none).disk) := rfl
  have hbegun : (World.ofStore shelf).WritesIn Config.default.site "data" :=
    .opened (c := .shelf) offers_drawer.bare rfl rfl hopen
  exact hbegun.run (by simp)

theorem filedOn_shelfDisk : shelved.store.FiledOn shelfDisk := writesIn_shelved.filedOn_diskOr _

/-- The step has been saved under the first id, for the third instance of a job. -/
theorem stored_shelfDisk : ∃ record : StepRecord, record.id = 1 ∧ record.job = ⟨7, 3⟩ ∧
    shelfDisk.stored "data" Config.defaultStepCollection = [record.toDocument] := by
  have hname : isName Config.defaultStepCollection = true := by decide
  have hshelved : ((shelved.store.view Config.defaultStepCollection).documents.mapM
      StepRecord.ofDocument).toOption.map (List.map fun r => (r.id, r.job)) = some [(1, ⟨7, 3⟩)] := by
    decide +kernel
  obtain ⟨value, records, hstored, -⟩ := writesIn_shelved.opens_again filedOn_shelfDisk hname
  rw [show Config.default.site.steps = Config.defaultStepCollection from rfl] at hstored
  rw [← writesIn_shelved.stored_eq filedOn_shelfDisk hname, hstored, StepRecord.mapM_ofDocument]
    at hshelved
  have hmap := Option.some.inj hshelved
  rw [List.map_map] at hmap
  obtain ⟨record, rfl, hrecord⟩ := List.map_eq_singleton_iff.1 hmap
  obtain ⟨hid, hjob⟩ := Prod.mk.inj hrecord
  exact ⟨record, hid, hjob, hstored⟩

/-- The step is printed as it is stored. -/
theorem shows_stored_of_shelved :
    let typed := ["--data-dir", "data", "show", "7", "1", "--instance", "3"]
    shelved.WritesIn Config.default.site "data" ∧ shelved.store.FiledOn shelfDisk ∧
    Arguments.ofList typed =
      .ok ⟨"data", Config.defaultSequenceCollection, .atomicIncrement, .print 7 1 3⟩ ∧
    ∃ d, shelfDisk.stored "data" Config.defaultStepCollection = [d] ∧
      (run shelfDisk typed).1.code = 0 ∧
      Json.ofText? (run shelfDisk typed).1.output.toList = some d.toJson := by
  intro typed
  have hread : Arguments.ofList typed =
      .ok ⟨"data", Config.defaultSequenceCollection, .atomicIncrement, .print 7 1 3⟩ := by decide
  obtain ⟨record, hid, hjob, hstored⟩ := stored_shelfDisk
  have hmem : record.toDocument ∈ shelfDisk.stored "data" Config.defaultStepCollection := by
    rw [hstored]
    exact List.mem_cons_self
  have hdid : record.toDocument.get? idField = some (Json.ofInt64 1).value :=
    get?_id_toDocument_iff.2 hid
  have hparent : record.toDocument.get? StepRecord.parentField = some (Json.ofInt64 7).value :=
    get?_parent_toDocument_iff.2 (congrArg JobExecution.id hjob)
  have hinstance : record.toDocument.get? StepRecord.parentInstanceField =
      some (Json.ofInt64 3).value := by
    rw [get?_parentInstance_toDocument, hjob]
    rfl
  obtain ⟨-, hruns⟩ := shows_stored writesIn_shelved filedOn_shelfDisk .atomicIncrement 7 1 3
  obtain ⟨-, hcode, hshown⟩ := hruns typed hread
  have hzero := hcode.2 ⟨_, hmem, hdid, hparent⟩
  obtain ⟨shown, htext, -, -, hsame⟩ := hshown _ hmem hdid hzero
  rw [hsame.2 hinstance] at htext
  exact ⟨writesIn_shelved, filedOn_shelfDisk, hread, _, hstored, hzero, htext⟩

/-- The same step is printed in another instance of the job than the one that is stored. -/
theorem instance_is_as_typed :
    let typed := ["--data-dir", "data", "show", "7", "1", "--instance", "4"]
    shelved.WritesIn Config.default.site "data" ∧ shelved.store.FiledOn shelfDisk ∧
    ∃ d shown : Document, shelfDisk.stored "data" Config.defaultStepCollection = [d] ∧
      d.get? idField = some (Json.ofInt64 1).value ∧ (run shelfDisk typed).1.code = 0 ∧
      Json.ofText? (run shelfDisk typed).1.output.toList = some shown.toJson ∧
      d.get? StepRecord.parentInstanceField = some (Json.ofInt64 3).value ∧
      shown.get? StepRecord.parentInstanceField = some (Json.ofInt64 4).value := by
  intro typed
  have hread : Arguments.ofList typed =
      .ok ⟨"data", Config.defaultSequenceCollection, .atomicIncrement, .print 7 1 4⟩ := by decide
  obtain ⟨record, hid, hjob, hstored⟩ := stored_shelfDisk
  obtain ⟨records, hrecords, -, hcases⟩ := run_show writesIn_shelved filedOn_shelfDisk hread
  obtain ⟨kept, rfl, hkept⟩ := List.map_eq_singleton_iff.1 (hrecords.symm.trans hstored)
  have hid' : kept.id = 1 := (congrArg StepRecord.id (StepRecord.toDocument_inj hkept) :).trans hid
  have hjob' : kept.job = ⟨7, 3⟩ :=
    (congrArg StepRecord.job (StepRecord.toDocument_inj hkept) :).trans hjob
  obtain ⟨other, hother, -, hsame, hrun⟩ | ⟨hnone, -⟩ := hcases
  · obtain rfl := List.mem_singleton.1 hother
    obtain ⟨shown, htext, -, hfields, -⟩ :=
      exists_shown other (show other.job.id = JobExecution.id ⟨7, 4⟩ from hsame)
    refine ⟨writesIn_shelved, filedOn_shelfDisk, _, shown, hrecords, get?_id_toDocument_iff.2 hid',
      by rw [hrun]; rfl, by rw [hrun]; exact htext, ?_, by rw [hfields, if_pos rfl]⟩
    rw [get?_parentInstance_toDocument, hjob']
    rfl
  · exact absurd (congrArg JobExecution.id hjob') (hnone kept List.mem_cons_self hid')

end CommandLine

end StepLedger

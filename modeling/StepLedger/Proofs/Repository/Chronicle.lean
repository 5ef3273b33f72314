import StepLedger.Proofs.Repository.Opening
import StepLedger.Proofs.Step.Carrying
import StepLedger.Proofs.Step.Returned
import StepLedger.Proofs.Step.Writes

/-!
# The history of a data directory

A `Chronicle` follows a data directory that is opened, used and opened again, always with the same
names and the same length of exit descriptions and with no other program at work there. Each request
finds the disk in a condition of its own, so that any snapshot may fail to be written, the second one
of an operation after the first as well.

The ids under which executions are saved ascend over the whole history. Once the directory has been
opened, it can always be opened again, which changes no file, and all that was written is read at the
version and with the contents that were acknowledged last, but for what an update does not write: the
name and the job stay those of the save (`Chronicle.durable_identity`).
-/

namespace StepLedger

open Sequence

/-! ## Saved ids -/

/-- The ids under which executions were saved, as they are told by a reply. -/
def Reply.savedIds : Reply → List Int64
  | .saved e => e.id.toList
  | .savedAll es => es.filterMap (·.id)
  | _ => []

/-- The ids under which executions were saved, in order. -/
def savedIds (replies : List Replied) : List Int64 := replies.flatMap fun replied => replied.2.savedIds

theorem Reply.savedIds_of_written_eq_nil {reply : Reply} (h : reply.written = []) :
    reply.savedIds = [] := by
  cases reply with
  | saved e => cases h
  | savedAll es => rw [Reply.savedIds, show es = [] from h, List.filterMap_nil]
  | _ => rfl

/-- What was written without an update was saved. -/
theorem Operation.Answers.savedIds_eq {operation : Operation} {reply : Reply}
    (h : operation.Answers reply) (hwhat : ∀ e, operation ≠ .update e) :
    reply.savedIds = reply.written.filterMap (·.id) := by
  cases reply with
  | saved e => cases hid : e.id <;> simp [Reply.savedIds, Reply.written, hid]
  | updated updated =>
    cases operation with
    | update e => exact absurd rfl (hwhat e)
    | saveAll es => cases es <;> exact h.elim
    | _ => exact h.elim
  | _ => rfl

theorem Booked.filterMap_id {cap : Nat} {saved : List StepExecution} {rs : List StepRecord}
    (h : Booked cap saved rs) : saved.filterMap (·.id) = rs.map (·.id) := by
  induction h with
  | nil => rfl
  | cons hr _ ih =>
    rw [List.filterMap_cons_some (StepRecord.shows_of_ofExecution hr.1).id, ih, List.map_cons]

theorem savedIds_append (replies : List Replied) (replied : Replied) :
    savedIds (replies ++ [replied]) = savedIds replies ++ replied.2.savedIds := by
  rw [savedIds, List.flatMap_append, List.flatMap_singleton]
  rfl

/-! ## Replies and records -/

/-- The value that was returned. -/
def Program.Outcome.value? {α : Type} : Outcome α → Option α
  | .returned a => some a
  | .failed _ | .stalled => none

/-- Replies account for records, which stand in the order in which they were saved, by ascending
id. -/
structure Registered (replies : List Replied) (records : List StepRecord) : Prop where
  accounted : Accounted replies records
  ids : savedIds replies = records.map (·.id)
  ascending : (records.map (·.id)).Pairwise fun id later => id.toInt < later.toInt

namespace Registered

variable {replies : List Replied} {records : List StepRecord}

theorem nil : Registered [] [] := ⟨.nil, rfl, .nil⟩

/-- An operation that is carried out leaves a ledger, and its reply accounts for the change. -/
theorem carried (h : Registered replies records) {site : Site} {command : Command} {base : Int64}
    (hold : ∀ r ∈ records, r.id.toInt ≤ base.toInt) {outcome : Program.Outcome Reply} {t : Scheduled}
    (hanswers : ∀ reply, outcome = .returned reply → command.2.Answers reply)
    (hcarried : Carried site command base records (outcome, t)) :
    ∃ value' records', Ledger site t.store value' records' ∧
      Registered (replies ++ (outcome.value?.map (command, ·)).toList) records' := by
  have hn : (records.map (·.id)).Nodup :=
    h.ascending.imp fun hlt heq => by rw [heq] at hlt; exact Int.lt_irrefl _ hlt
  cases hcarried with
  | @nothing _ _ value ledger quiet =>
    refine ⟨value, records, ledger, ?_⟩
    cases outcome with
    | returned reply =>
      obtain ⟨hwritten, hwhat⟩ := quiet reply rfl
      refine ⟨h.accounted.append_quiet (updatedFrom?_eq_none hwhat reply) hwritten, ?_, h.ascending⟩
      refine (savedIds_append replies (command, reply)).trans ?_
      rw [Reply.savedIds_of_written_eq_nil hwritten, List.append_nil, h.ids]
    | failed e => simpa [Program.Outcome.value?] using h
    | stalled => simpa [Program.Outcome.value?] using h
  | @inserted reply _ value rs ledger drawn booked what =>
    have hfresh := drawn.fresh hold
    refine ⟨value, records ++ rs, ledger, h.accounted.append_inserted hfresh.nodup
      (fun r hr => hfresh.notMem r.id (List.mem_map_of_mem hr)) booked
      (updatedFrom?_eq_none what reply), ?_, ?_⟩
    · refine (savedIds_append replies (command, reply)).trans ?_
      rw [(hanswers reply rfl).savedIds_eq what, booked.filterMap_id, h.ids, List.map_append]
    · rw [List.map_append]
      refine List.pairwise_append.2 ⟨h.ascending, drawn.ascending, fun id hid later hlater => ?_⟩
      obtain ⟨r, hr, rfl⟩ := List.mem_map.1 hid
      exact Int.lt_of_le_of_lt (hold r hr) (drawn.lt later hlater)
  | @replaced _ value i before r e updated place ledger what id version successor written =>
    refine ⟨value, records.set i (r.laidOver before), ledger, h.accounted.append_replaced hn place
      (updatedFrom?_eq_of_update what id version (.updated updated)) rfl written successor, ?_, ?_⟩
    · refine (savedIds_append replies (command, .updated updated)).trans ?_
      rw [map_id_set place, ← h.ids]
      exact List.append_nil _
    · rw [map_id_set place]
      exact h.ascending

end Registered

/-! ## Chronicles -/

/-- What happens to a data directory. -/
inductive Event where
  /-- It is opened by somebody who allocates in some way; who had it open has let go of it. -/
  | opened (strategy : Strategy) (condition : Disk.Condition)
  /-- Something is called, if the directory is open. Each request finds the disk in the next
  condition. -/
  | called (operation : Operation) (rounds : Nat) (conditions : List Disk.Condition)

/-- A data directory in use. -/
structure Chronicle where
  disk : Disk
  /-- The repository that is open. -/
  repository : Option Repository
  /-- The calls that have returned, in order, each with what was returned. -/
  replies : List Replied

/-- The disk in another condition. -/
def Disk.under (disk : Disk) (condition : Condition) : Disk :=
  ⟨disk.files, condition.now, condition.refused⟩

theorem Store.archive_under {s : Store} {a : Archive} (ha : s.archive = some a)
    (condition : Disk.Condition) :
    (s.under condition).archive = some { a with disk := a.disk.under condition } := by
  rw [under, ha]
  rfl

namespace Chronicle

/-- A disk on which nothing has happened. -/
def ofDisk (disk : Disk) : Chronicle := ⟨disk, none, []⟩

/-- Open the directory of a configuration. -/
def opened (c : Config) (w : Chronicle) (condition : Disk.Condition) : Chronicle :=
  match Repository.ofConfig (w.disk.under condition) c with
  | (.returned r, disk) => { w with disk, repository := some r }
  | (_, disk) => { w with disk, repository := none }

/-- Call something of a repository. -/
def called (w : Chronicle) (r : Repository) (operation : Operation) (rounds : Nat)
    (conditions : List Disk.Condition) : Chronicle :=
  let command := (r.config.client rounds, operation)
  let (outcome, t) := (r.config.site.program command).run Scheduled.answer ⟨r.store, conditions⟩
  { disk := t.store.diskOr w.disk
    repository := some { r with store := t.store }
    replies := w.replies ++ (outcome.value?.map (command, ·)).toList }

/-- What the next event makes of a directory that is opened by one configuration, but for the
strategy. -/
def next (c : Config) (w : Chronicle) : Event → Chronicle
  | .opened strategy condition => w.opened { c with strategy } condition
  | .called operation rounds conditions =>
    match w.repository with
    | some r => w.called r operation rounds conditions
    | none => w

/-- Let events happen one after the other. -/
def run (c : Config) (w : Chronicle) (events : List Event) : Chronicle := events.foldl (next c) w

theorem run_append (c : Config) (w : Chronicle) (events : List Event) (event : Event) :
    w.run c (events ++ [event]) = (w.run c events).next c event := by
  rw [run, List.foldl_append]
  rfl

/-- To open a directory is no call. -/
theorem replies_next_opened (c : Config) (w : Chronicle) (strategy : Strategy)
    (condition : Disk.Condition) : (w.next c (.opened strategy condition)).replies = w.replies := by
  rw [next, opened]
  split <;> rfl

/-! ## What a chronicle shows -/

/-- The repository is open and has all that the chronicle tells of. -/
structure Sound (c : Config) (directory : String) (w : Chronicle) (strategy : Strategy) (s : Store)
    (value : Int64) (records : List StepRecord) : Prop where
  valid : c.validate = .ok ()
  repository : w.repository = some ⟨{ c with strategy }, s⟩
  disk : ∃ a, s.archive = some a ∧ a.disk = w.disk
  durable : s.Durable directory
  ledger : Ledger c.site s value records
  registered : Registered w.replies records
  replies : ∀ replied ∈ w.replies, replied.1.1.cap = c.descriptionCap ∧
    replied.1.2.Answers replied.2

/-- The directory has not been opened yet, or the chronicle is sound. -/
def Kept (c : Config) (directory : String) (w : Chronicle) : Prop :=
  (w.repository = none ∧ w.replies = [] ∧ w.disk.Bare directory) ∨
    ∃ strategy s value records, Sound c directory w strategy s value records

variable {c : Config} {directory : String} {w : Chronicle}

/-- The directory is opened again. -/
theorem Sound.opened (hdirectory : c.dataDirectory = some directory) {strategy : Strategy}
    {s : Store} {value : Int64} {records : List StepRecord}
    (h : Sound c directory w strategy s value records) (strategy' : Strategy)
    (condition : Disk.Condition) :
    (∃ s', Sound c directory (w.opened { c with strategy := strategy' } condition) strategy' s' value
      records) ∧
      (w.opened { c with strategy := strategy' } condition).disk.files = w.disk.files := by
  obtain ⟨a, ha, hdisk⟩ := h.disk
  have hledger : Ledger c.site (s.under condition) value records := h.ledger.of_alike fun _ => rfl
  have harchive : (s.under condition).archive = some { a with disk := w.disk.under condition } :=
    hdisk ▸ Store.archive_under ha condition
  obtain ⟨s', hopen, hdurable, hledger', ha'⟩ := Repository.ofConfig_again
    (c := { c with strategy := strategy' }) h.valid hdirectory (h.durable.under condition) hledger
    harchive
  rw [show w.opened { c with strategy := strategy' } condition =
    { w with disk := w.disk.under condition, repository := some ⟨{ c with strategy := strategy' }, s'⟩ }
    by rw [Chronicle.opened, hopen]]
  exact ⟨⟨s', h.valid, rfl, ⟨_, ha', rfl⟩, hdurable, hledger', h.registered, h.replies⟩, rfl⟩

/-- Something is called. -/
theorem Sound.called {strategy : Strategy} {s : Store} {value : Int64} {records : List StepRecord}
    (h : Sound c directory w strategy s value records) (operation : Operation) (rounds : Nat)
    (conditions : List Disk.Condition) :
    ∃ s' value' records', Sound c directory
      (w.called ⟨{ c with strategy }, s⟩ operation rounds conditions) strategy s' value' records' := by
  let command : Command := ({ c with strategy }.client rounds, operation)
  cases hrun : (c.site.program command).run Scheduled.answer ⟨s, conditions⟩ with
  | mk outcome t =>
    have hcalled : w.called ⟨{ c with strategy }, s⟩ operation rounds conditions =
        ⟨t.store.diskOr w.disk, some ⟨{ c with strategy }, t.store⟩,
          w.replies ++ (outcome.value?.map (command, ·)).toList⟩ := by
      show (match (c.site.program command).run Scheduled.answer ⟨s, conditions⟩ with
        | (outcome, t) => Chronicle.mk (t.store.diskOr w.disk) (some ⟨{ c with strategy }, t.store⟩)
          (w.replies ++ (outcome.value?.map (command, ·)).toList)) = _
      rw [hrun]
    have hanswers : ∀ reply, outcome = .returned reply → operation.Answers reply := by
      rintro reply rfl
      exact (Operation.asks_program operation).returned hrun
    have hdurable : t.store.Durable directory := by
      have hlasting : ((c.site.program command).run Scheduled.answer
          ⟨s, conditions⟩).2.store.Durable directory := operation.durable_run h.durable
      rwa [hrun] at hlasting
    have hcarried : Carried c.site command value records (outcome, t) := by
      rw [← hrun]
      exact (keeps_program c.site command).carried h.ledger.ids_le h.ledger (Int.le_refl _)
        (.nil value value)
    obtain ⟨value', records', hledger, hregistered⟩ :=
      h.registered.carried h.ledger.ids_le hanswers hcarried
    obtain ⟨a, written, hstep⟩ := hdurable.inStep
    rw [hcalled]
    refine ⟨t.store, value', records', h.valid, rfl, ⟨a, hstep.durable, ?_⟩, hdurable, hledger,
      hregistered, fun replied hreplied => ?_⟩
    · rw [Store.diskOr, hstep.durable]
      rfl
    · rcases List.mem_append.1 hreplied with hold | hnew
      · exact h.replies replied hold
      · obtain ⟨reply, hreply, rfl⟩ := Option.map_eq_some_iff.1 (Option.mem_toList.1 hnew)
        cases outcome with
        | returned a => cases hreply; exact ⟨rfl, hanswers reply rfl⟩
        | failed e => cases hreply
        | stalled => cases hreply

theorem kept_ofDisk {disk : Disk} (hbare : disk.Bare directory) : Kept c directory (ofDisk disk) :=
  .inl ⟨rfl, rfl, hbare⟩

/-- Whatever happens next, what is told is there. -/
theorem Kept.next (hdirectory : c.dataDirectory = some directory) (h : Kept c directory w)
    (event : Event) : Kept c directory (w.next c event) := by
  cases event with
  | opened strategy condition =>
    rw [Chronicle.next]
    obtain ⟨hclosed, hnone, hbare⟩ | ⟨_, s, value, records, hsound⟩ := h
    · obtain ⟨s, a, value, hvalid, hopen, ha, hdurable, hledger⟩ | ⟨e, disk', hopen, hbare'⟩ :=
        Repository.ofConfig_first (c := { c with strategy }) hdirectory
          (show (w.disk.under condition).Bare directory from hbare)
      · rw [Chronicle.opened, hopen]
        refine .inr ⟨strategy, s, value, [], hvalid, rfl, ⟨a, ha, rfl⟩, hdurable, hledger, ?_, ?_⟩
        · rw [show ({ w with disk := a.disk, repository := some ⟨{ c with strategy }, s⟩ } :
            Chronicle).replies = [] from hnone]
          exact .nil
        · rw [show ({ w with disk := a.disk, repository := some ⟨{ c with strategy }, s⟩ } :
            Chronicle).replies = [] from hnone]
          simp
      · rw [Chronicle.opened, hopen]
        exact .inl ⟨rfl, hnone, hbare'⟩
    · obtain ⟨⟨s', hsound'⟩, -⟩ := hsound.opened hdirectory strategy condition
      exact .inr ⟨strategy, s', value, records, hsound'⟩
  | called operation rounds conditions =>
    rw [Chronicle.next]
    obtain ⟨hclosed, hnone, hbare⟩ | ⟨strategy, s, value, records, hsound⟩ := h
    · rw [hclosed]
      exact .inl ⟨hclosed, hnone, hbare⟩
    · rw [hsound.repository]
      obtain ⟨s', value', records', hsound'⟩ := hsound.called operation rounds conditions
      exact .inr ⟨strategy, s', value', records', hsound'⟩

/-- At every point of a history, what is told is there. -/
theorem Kept.run (hdirectory : c.dataDirectory = some directory) (h : Kept c directory w)
    (events : List Event) : Kept c directory (w.run c events) := by
  induction events generalizing w with
  | nil => exact h
  | cons event events ih => exact ih (h.next hdirectory event)

/-! ## Reading -/

section

variable {strategy : Strategy} {s : Store} {value : Int64} {records : List StepRecord} {id : Int64}
  {first last : Nat × StepExecution} (h : Sound c directory w strategy s value records)
  (hfirst : (writes w.replies id).head? = some first)
  (hlast : (writes w.replies id).getLast? = some last) (rounds : Nat) {job : JobExecution}
include h hfirst hlast

/-- What was written under an id is stored as it was written last, but with the name and for the run of
a job that were written first. -/
theorem Sound.stored : ∃ r : StepRecord,
    r.toDocument ∈ (s.view c.stepCollection).documents ∧ r.id = id ∧
      first.2.name = some r.name ∧ first.2.job = r.job ∧ r.Shows last.2 c.descriptionCap := by
  have hmem : id ∈ records.map (·.id) := by
    by_contra hnot
    rw [h.registered.accounted.unwritten id hnot] at hfirst
    cases hfirst
  obtain ⟨r, hr, rfl⟩ := List.mem_map.1 hmem
  obtain ⟨_, _, hhead, hname, hjob⟩ := h.registered.accounted.named r hr
  obtain rfl := Option.some.inj (hfirst.symm.trans hhead)
  obtain ⟨cap, e, hget, hshows⟩ := h.registered.accounted.shown r hr
  obtain rfl := Option.some.inj (hlast.symm.trans hget)
  have hcap : cap = c.descriptionCap := by
    obtain ⟨replied, hreplied, hwritten⟩ := List.mem_flatMap.1
      (List.mem_filter.1 (List.mem_of_getLast? hget)).1
    obtain ⟨_, -, heq⟩ := List.mem_map.1 hwritten
    exact (congrArg Prod.fst heq).symm.trans (h.replies replied hreplied).1
  refine ⟨r, ?_, rfl, hname, hjob, hcap ▸ hshows⟩
  rw [show (s.view c.stepCollection).documents = _ from h.ledger.documents]
  exact List.mem_map_of_mem hr

/-- It is read for the run of the job that was written first. -/
theorem Sound.get (hjob : job.id = first.2.job.id) :
    ((⟨{ c with strategy }, s⟩ : Repository).run (({ c with strategy }.steps rounds).get job id)).1 =
      .returned { last.2.carried.cut c.descriptionCap with name := first.2.name, job := job } := by
  obtain ⟨r, hdocument, rfl, hname, hfirstJob, hshows⟩ := h.stored hfirst hlast
  have hread := run_get (c := Config.steps { c with strategy } rounds) h.durable.wellFormed
    (h.durable.check (List.ne_nil_of_mem hdocument)) hdocument
    (hjob.trans (congrArg JobExecution.id hfirstJob))
  have hshown : r.toExecution job = { last.2.cut c.descriptionCap with
      name := first.2.name, job := job } := hname ▸ hshows.toExecution job
  rw [Repository.fst_run, hread, hshown]
  rfl

/-- It is not found for the run of another job. -/
theorem Sound.get_elsewhere (hjob : job.id ≠ first.2.job.id) :
    ((⟨{ c with strategy }, s⟩ : Repository).run (({ c with strategy }.steps rounds).get job id)).1 =
      .failed (.notFound (.stepOfJob id.toInt job.id.toInt)) := by
  obtain ⟨r, hdocument, rfl, -, hfirstJob, -⟩ := h.stored hfirst hlast
  have hmissed := run_get_elsewhere (c := Config.steps { c with strategy } rounds)
    h.durable.wellFormed (h.durable.check (List.ne_nil_of_mem hdocument)) hdocument
    (ne_of_ne_of_eq hjob (congrArg JobExecution.id hfirstJob))
  rw [Repository.fst_run, hmissed]

/-- What was written last is read for the run of the job that it names, up to the cut, exactly if it
names the job and has the name that were written first, and nothing is carried. -/
theorem Sound.get_last_iff :
    ((⟨{ c with strategy }, s⟩ : Repository).run
        (({ c with strategy }.steps rounds).get last.2.job id)).1 =
      .returned (last.2.cut c.descriptionCap) ↔
    last.2.job.id = first.2.job.id ∧ last.2.name = first.2.name ∧ last.2.Proper := by
  by_cases hjob : last.2.job.id = first.2.job.id
  · rw [h.get hfirst hlast rounds hjob, Program.Outcome.returned.injEq, and_iff_right hjob]
    exact StepExecution.named_carried_eq_self_iff (e := last.2.cut c.descriptionCap)
  · rw [h.get_elsewhere hfirst hlast rounds hjob]
    exact iff_of_false nofun fun hsame => hjob hsame.1

end

/-- Where something has been written, a repository is open that has it. -/
theorem Kept.sound_of_writes (h : Kept c directory w) {id : Int64} {first : Nat × StepExecution}
    (hfirst : (writes w.replies id).head? = some first) :
    ∃ strategy s value records, Sound c directory w strategy s value records := by
  obtain ⟨-, hnone, -⟩ | hsound := h
  · rw [hnone] at hfirst
    cases hfirst
  · exact hsound

/-- Ids ascend, and replies answer what was called. -/
theorem Kept.replies (h : Kept c directory w) :
    (savedIds w.replies).Pairwise (fun id later => id.toInt < later.toInt) ∧
      ∀ replied ∈ w.replies, replied.1.2.Answers replied.2 := by
  obtain ⟨-, hnone, -⟩ | ⟨strategy, s, value, records, hsound⟩ := h
  · rw [hnone]
    exact ⟨.nil, by simp⟩
  · refine ⟨?_, fun replied hreplied => (hsound.replies replied hreplied).2⟩
    rw [hsound.registered.ids]
    exact hsound.registered.ascending

/-- A directory that is open can be used and opened again. -/
theorem Kept.again (hdirectory : c.dataDirectory = some directory) (h : Kept c directory w)
    (hopen : w.repository.isSome = true) :
    (∀ event, (w.next c event).repository.isSome = true) ∧
      ∀ strategy condition, (w.next c (.opened strategy condition)).disk.files = w.disk.files := by
  obtain ⟨hclosed, -, -⟩ | ⟨_, s, value, records, hsound⟩ := h
  · rw [hclosed] at hopen
    cases hopen
  have hagain := hsound.opened hdirectory
  refine ⟨fun event => ?_, fun strategy condition => (hagain strategy condition).2⟩
  cases event with
  | opened strategy condition =>
    obtain ⟨⟨s', hsound'⟩, -⟩ := hagain strategy condition
    exact Option.isSome_of_mem hsound'.repository
  | called operation rounds conditions =>
    rw [Chronicle.next, hsound.repository]
    rfl

/-- The first opening of an empty directory, and everything that is called and every opening after
that, in whatever condition the disk is:
- the ids under which executions are saved ascend;
- what was written under an id is read from the repository that is open now, at the version and with
  the contents that the last reply about it told, with a cut exit description and nanoseconds carried,
  but with the name and only for the run of a job that the first reply about it told; so what the last
  reply told is read, up to the cut, exactly if it has that name and that job and nothing is carried;
- a directory that has been opened can always be opened again, which changes no file. -/
theorem durable_identity (hdirectory : c.dataDirectory = some directory) {disk : Disk}
    (hempty : disk.files.children (Path.ofText directory).place = []) (events : List Event) :
    let w := (ofDisk disk).run c events
    (savedIds w.replies).Pairwise (fun id later => id.toInt < later.toInt) ∧
    (∀ replied ∈ w.replies, replied.1.2.Answers replied.2) ∧
    (∀ id first last, (writes w.replies id).head? = some first →
      (writes w.replies id).getLast? = some last → ∃ r, w.repository = some r ∧ ∀ rounds,
        (∀ job, job.id = first.2.job.id → (r.run ((r.config.steps rounds).get job id)).1 =
          .returned { last.2.carried.cut c.descriptionCap with name := first.2.name, job := job }) ∧
        (∀ job, job.id ≠ first.2.job.id → (r.run ((r.config.steps rounds).get job id)).1 =
          .failed (.notFound (.stepOfJob id.toInt job.id.toInt))) ∧
        ((r.run ((r.config.steps rounds).get last.2.job id)).1 =
            .returned (last.2.cut c.descriptionCap) ↔
          last.2.job.id = first.2.job.id ∧ last.2.name = first.2.name ∧ last.2.Proper)) ∧
    (w.repository.isSome = true →
      (∀ event, (w.next c event).repository.isSome = true) ∧
      ∀ strategy condition, (w.next c (.opened strategy condition)).disk.files = w.disk.files) := by
  intro w
  have hkept : Kept c directory w :=
    (kept_ofDisk (Disk.bare_of_children_eq_nil hempty)).run hdirectory events
  obtain ⟨hascending, hanswers⟩ := hkept.replies
  refine ⟨hascending, hanswers, fun id first last hfirst hlast => ?_, hkept.again hdirectory⟩
  obtain ⟨strategy, s, value, records, hsound⟩ := hkept.sound_of_writes hfirst
  exact ⟨_, hsound.repository, fun rounds => ⟨fun job => hsound.get hfirst hlast rounds,
    fun job => hsound.get_elsewhere hfirst hlast rounds, hsound.get_last_iff hfirst hlast rounds⟩⟩

end Chronicle

/-- A configuration with a data directory that stores three characters of an exit description. -/
def Config.shelf : Config :=
  { Config.default with descriptionCap := 3, dataDirectory := some "data" }

/-- A save whose second snapshot cannot be written, and one more. -/
def Event.saves : List Event :=
  [.opened .atomicIncrement ⟨(Archive.drawer none).disk.now, none⟩,
    .called (.save .opening) 1 [⟨(Archive.drawer none).disk.now, none⟩,
      ⟨(Archive.drawer none).disk.now, some .rename⟩],
    .called (.save .opening) 1 [⟨(Archive.drawer none).disk.now, none⟩]]

/-- The second execution is saved under the second id and read when the directory is open again. -/
theorem Chronicle.durable_identity_of_saves :
    let w := (ofDisk (Archive.drawer none).disk).run .shelf Event.saves
    let again := w.next .shelf (.opened .compareAndSwap ⟨(Archive.drawer none).disk.now, none⟩)
    Config.shelf.dataDirectory = some "data" ∧
    (Archive.drawer none).disk.files.children (Path.ofText "data").place = [] ∧
    savedIds w.replies = [2] ∧ again.disk.files = w.disk.files ∧
    ∃ r, again.repository = some r ∧ (r.run ((r.config.steps 1).get ⟨7, 3⟩ 2)).1 =
      .returned ((StepExecution.opening.identified 2 0).cut 3) := by
  dsimp only
  have hempty : (Archive.drawer none).disk.files.children (Path.ofText "data").place = [] := rfl
  obtain ⟨hids, hwrites⟩ :
      savedIds ((ofDisk (Archive.drawer none).disk).run .shelf Event.saves).replies = [2] ∧
        writes ((ofDisk (Archive.drawer none).disk).run .shelf Event.saves).replies 2 =
          [(3, StepExecution.opening.identified 2 0)] := by decide +kernel
  obtain ⟨-, -, hopen, hkept⟩ := durable_identity (c := .shelf) rfl hempty Event.saves
  obtain ⟨-, -, hread, -⟩ := durable_identity (c := .shelf) rfl hempty
    (Event.saves ++ [.opened .compareAndSwap ⟨(Archive.drawer none).disk.now, none⟩])
  rw [run_append, replies_next_opened] at hread
  obtain ⟨_, hsome, -⟩ := hopen 2 _ _ (by rw [hwrites]; rfl) (by rw [hwrites]; rfl)
  obtain ⟨r, hr, hget⟩ := hread 2 _ _ (by rw [hwrites]; rfl) (by rw [hwrites]; rfl)
  exact ⟨rfl, hempty, hids, (hkept (Option.isSome_of_mem hsome)).2 _ _, r, hr,
    (hget 1).1 ⟨7, 3⟩ rfl⟩

/-- A step is saved and updated under another name. -/
def Event.renames : List Event :=
  [.opened .atomicIncrement ⟨(Archive.drawer none).disk.now, none⟩,
    .called (.save .opening) 1 [], .called (.update .renamed) 1 []]

/-- The update is acknowledged, and what it told is not read when the directory is open again. -/
theorem Chronicle.acknowledged_is_not_read :
    let w := (ofDisk (Archive.drawer none).disk).run .shelf Event.renames
    let again := w.next .shelf (.opened .compareAndSwap ⟨(Archive.drawer none).disk.now, none⟩)
    (Archive.drawer none).disk.files.children (Path.ofText "data").place = [] ∧
    (writes again.replies 1).getLast? = some (3, .identified .renamed 1 1) ∧
    ∃ r, again.repository = some r ∧ (r.run ((r.config.steps 1).get ⟨7, 3⟩ 1)).1 ≠
      .returned ((StepExecution.renamed.identified 1 1).cut 3) := by
  dsimp only
  have hempty : (Archive.drawer none).disk.files.children (Path.ofText "data").place = [] := rfl
  have hkept : Kept .shelf "data" ((ofDisk (Archive.drawer none).disk).run .shelf Event.renames) :=
    (kept_ofDisk (Disk.bare_of_children_eq_nil hempty)).run rfl Event.renames
  have hwrites : writes ((ofDisk (Archive.drawer none).disk).run .shelf Event.renames).replies 1 =
      [(3, .identified .opening 1 0), (3, .identified .renamed 1 1)] := by decide +kernel
  -- what follows holds after any such run, and evaluates no further opening
  generalize (ofDisk (Archive.drawer none).disk).run .shelf Event.renames = w at hkept hwrites
  have hagain := hkept.next rfl (.opened .compareAndSwap ⟨(Archive.drawer none).disk.now, none⟩)
  rw [← replies_next_opened .shelf w .compareAndSwap ⟨(Archive.drawer none).disk.now, none⟩] at hwrites
  generalize w.next .shelf (.opened .compareAndSwap ⟨(Archive.drawer none).disk.now, none⟩) = again
    at hagain hwrites
  have hfirst : (writes again.replies 1).head? = some (3, .identified .opening 1 0) :=
    congrArg List.head? hwrites
  have hlast : (writes again.replies 1).getLast? = some (3, .identified .renamed 1 1) :=
    congrArg List.getLast? hwrites
  obtain ⟨_, s, _, _, hsound⟩ := hagain.sound_of_writes hfirst
  refine ⟨hempty, hlast, _, hsound.repository, fun hread => ?_⟩
  obtain ⟨-, hname, -⟩ := (hsound.get_last_iff hfirst hlast 1).1 hread
  exact absurd hname (by decide)

end StepLedger

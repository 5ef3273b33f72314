import StepLedger.Proofs.Repository.Soundness
import StepLedger.Proofs.Step.Lasting
import StepLedger.Proofs.Store.Closing

/-!
# What repositories leave in a directory

A world writes in a directory (`World.WritesIn`) if its store is that of a repository there, the first
one or one that came after others. Repositories come one after the other, each with a strategy and a
length of exit descriptions of its own, and each with any number of calls at once. The disk may refuse
anything at any time, and a repository may be closed or let go of with calls under way.

Whatever has happened, the directory can be opened again, which changes no file, and it holds documents
of records that may be stored, under distinct ids (`WritesIn.opens_again`).
-/

namespace StepLedger

/-- The worlds that write in a directory under some names. -/
inductive World.WritesIn (site : Site) (directory : String) : World Command Reply → Prop
  /-- The directory is opened for the first time. -/
  | opened {disk disk' : Disk} {c : Config} {r : Repository} (bare : disk.Bare directory)
      (here : c.dataDirectory = some directory) (names : c.site = site)
      (opens : Repository.ofConfig disk c = (.returned r, disk')) :
      WritesIn site directory (.ofStore r.store)
  /-- It is opened again, and nothing is under way. -/
  | reopened {w : World Command Reply} {disk disk' : Disk} {c : Config} {r : Repository}
      (before : WritesIn site directory w) (filed : w.store.FiledOn disk)
      (here : c.dataDirectory = some directory) (names : c.site = site)
      (opens : Repository.ofConfig disk c = (.returned r, disk')) :
      WritesIn site directory (.ofStore r.store)
  /-- What is open is used. Nobody else writes: the disk keeps its files when it changes. -/
  | moved {w : World Command Reply} {m : Move Command} (before : WritesIn site directory w)
      (kept : ∀ disk, m = .onDisk disk → w.store.FiledOn disk) :
      WritesIn site directory (w.move site.program m)

/-- The disk is then in another condition. -/
theorem Store.FiledOn.onDisk_eq {s : Store} {disk : Disk} (h : s.FiledOn disk) :
    s.onDisk disk = s.under ⟨disk.now, disk.refused⟩ := by
  obtain ⟨a, ha, hfiles⟩ := h
  rw [onDisk, under, ha, Option.map_some, Option.map_some, hfiles]

/-! ## What is entered may be stored -/

/-- Records that may be stored are only joined or replaced by such. -/
theorem Entered.check {site : Site} {i : Nat} {what : Command} {held held' : Nat → List Int64}
    {value value' : Int64} {records records' : List StepRecord} {left : Program Reply}
    (h : Entered site i what held value records left held' value' records')
    (hrecords : ∀ r ∈ records, r.counters.check = .ok ()) :
    ∀ r ∈ records', r.counters.check = .ok () := by
  cases h with
  | quiet | allocated => exact hrecords
  | inserted _ booked =>
    intro r hr
    rcases List.mem_append.1 hr with hr | hr
    · exact hrecords r hr
    · obtain ⟨e, hexecution⟩ := booked.exists_execution r hr
      exact StepRecord.check_of_ofExecution hexecution
  | @replaced k before r e updated _ _ _ _ _ _ execution =>
    intro r' hr'
    rcases List.mem_or_eq_of_mem_set hr' with hr' | rfl
    · exact hrecords r' hr'
    · exact StepRecord.check_of_ofExecution (r := r) execution

/-! ## What is kept -/

/-- The store as it is while it is open. -/
def Store.whileOpen (s : Store) : Store := { s with closed := false }

theorem Store.whileOpen_of_open {s : Store} (h : s.closed = false) : s.whileOpen = s := by
  rw [whileOpen, ← h]

/-- A world whose store loses nothing, be it closed or not, and whose records may be stored. -/
structure Intact (site : Site) (directory : String) (w : World Command Reply)
    (held : Nat → List Int64) (value : Int64) (records : List StepRecord) : Prop
    extends Tended site w held value records where
  durable : w.store.whileOpen.Durable directory
  check : ∀ r ∈ records, r.counters.check = .ok ()
  asks : ∀ call ∈ w.calls, call.left.Asks site.Poses fun _ => True

namespace Intact

variable {site : Site} {directory : String} {w : World Command Reply} {held : Nat → List Int64}
  {value : Int64} {records : List StepRecord}

theorem ofStore {s : Store} (hs : s.Durable directory) (hledger : Ledger site s value records)
    (hcheck : ∀ r ∈ records, r.counters.check = .ok ()) :
    Intact site directory (.ofStore s) (fun _ => []) value records where
  toTended := .ofStore hledger
  durable := (Store.whileOpen_of_open hs.opened).symm ▸ hs
  check := hcheck
  asks := by simp [World.ofStore]

theorem start (h : Intact site directory w held value records) (what : Command) :
    ∃ held, Intact site directory (w.start what (site.program what)) held value records := by
  refine ⟨_, h.toTended.start what, h.durable, h.check, fun call hcall => ?_⟩
  rcases List.mem_append.1 hcall with hcall | hcall
  · exact h.asks call hcall
  · rw [List.mem_singleton.1 hcall]
    exact Program.asks_mono (Operation.asks_program what.2) (fun _ h => h) fun _ _ => trivial

/-- A request is answered. A closed store stays as it is. -/
theorem answer (h : Intact site directory w held value records) {i : Nat} {what : Command}
    {request : Request} {next : request.Answer → Program Reply}
    (hcall : w.calls[i]? = some ⟨what, .ask request next⟩) : ∃ held value records,
      Intact site directory (w.answer i what request next) held value records := by
  obtain ⟨hposes, hasks⟩ := h.asks _ (List.mem_of_getElem? hcall)
  obtain ⟨held', value', records', htended, hentered⟩ := h.toTended.answer hcall
  refine ⟨held', value', records', htended, ?_, hentered.check h.check, fun call hm => ?_⟩
  · show (w.store.answer request).2.whileOpen.Durable directory
    cases hclosed : w.store.closed with
    | true =>
      rw [Store.snd_answer_of_closed hclosed]
      exact h.durable
    | false =>
      obtain ⟨hkept, hdrop⟩ := hposes.durable
      have hdurable : (w.store.answer request).2.Durable directory :=
        (Store.whileOpen_of_open hclosed ▸ h.durable).answer hkept hdrop
      rwa [Store.whileOpen_of_open hdurable.opened]
  · rcases List.mem_or_eq_of_mem_set hm with hm | rfl
    · exact h.asks call hm
    · exact Program.asks_resume hasks _

/-- The disk is in another condition. -/
theorem onDisk (h : Intact site directory w held value records) {disk : Disk}
    (hdisk : w.store.FiledOn disk) :
    Intact site directory { w with store := w.store.onDisk disk } held value records where
  toTended := h.toTended.rest fun _ => rfl
  durable := hdisk.onDisk_eq ▸ h.durable.under ⟨disk.now, disk.refused⟩
  check := h.check
  asks := h.asks

theorem close (h : Intact site directory w held value records) :
    Intact site directory { w with store := w.store.close } held value records where
  toTended := h.toTended.rest fun _ => rfl
  durable := h.durable
  check := h.check
  asks := h.asks

theorem move (h : Intact site directory w held value records) {m : Move Command}
    (hkept : ∀ disk, m = .onDisk disk → w.store.FiledOn disk) :
    ∃ held value records, Intact site directory (w.move site.program m) held value records := by
  cases m with
  | start what =>
    obtain ⟨held', h'⟩ := h.start what
    exact ⟨held', value, records, h'⟩
  | onDisk disk => exact ⟨held, value, records, h.onDisk (hkept disk rfl)⟩
  | close => exact ⟨held, value, records, h.close⟩
  | ask i =>
    rw [World.move, World.ask]
    split
    · next what request next hcall => exact h.answer hcall
    · exact ⟨held, value, records, h⟩

/-- The directory is opened again on a disk with the files of the store, which changes nothing there. -/
theorem opens_again (h : Intact site directory w held value records) {disk : Disk}
    (hdisk : w.store.FiledOn disk) {c : Config} (hvalid : c.validate = .ok ())
    (hdirectory : c.dataDirectory = some directory) (hsite : c.site = site) :
    ∃ s, Repository.ofConfig disk c = (.returned ⟨c, s⟩, disk) ∧ s.diskOr disk = disk ∧
      s.Durable directory ∧ Ledger site s value records := by
  subst hsite
  have hfiled : w.store.whileOpen.FiledOn disk := hdisk
  have hdurable : (w.store.whileOpen.onDisk disk).Durable directory := by
    rw [hfiled.onDisk_eq]
    exact h.durable.under ⟨disk.now, disk.refused⟩
  have hledger : Ledger c.site (w.store.whileOpen.onDisk disk) value records :=
    h.ledger.of_alike fun _ => rfl
  obtain ⟨a, ha, -⟩ := hdisk
  have harchive : (w.store.whileOpen.onDisk disk).archive = some { a with disk } :=
    congrArg (Option.map _) ha
  obtain ⟨s, hopen, hs, hledger', ha'⟩ :=
    Repository.ofConfig_again hvalid hdirectory hdurable hledger harchive
  refine ⟨s, hopen, ?_, hs, hledger'⟩
  rw [Store.diskOr, ha']
  rfl

end Intact

namespace World.WritesIn

variable {site : Site} {directory : String} {w : World Command Reply}

theorem intact (h : w.WritesIn site directory) :
    ∃ held value records, Intact site directory w held value records := by
  induction h with
  | @opened disk disk' c r bare here names opens =>
    obtain ⟨s, a, value, -, hopen, -, hdurable, hledger⟩ | ⟨e, disk'', hopen, -⟩ :=
      Repository.ofConfig_first here bare
    · cases hopen.symm.trans opens
      exact ⟨_, value, [], .ofStore hdurable (names ▸ hledger) (by simp)⟩
    · cases hopen.symm.trans opens
  | @reopened w disk disk' c r before filed here names opens ih =>
    obtain ⟨held, value, records, h⟩ := ih
    obtain ⟨hvalid, -⟩ := Repository.returned_of_ofConfig opens
    obtain ⟨s, hopen, -, hdurable, hledger⟩ := h.opens_again filed hvalid here names
    cases hopen.symm.trans opens
    exact ⟨_, value, records, .ofStore hdurable hledger h.check⟩
  | moved before kept ih =>
    obtain ⟨held, value, records, h⟩ := ih
    exact h.move kept

/-- Whatever calls do, in whatever order, and also when the repository is closed. -/
theorem run (h : w.WritesIn site directory) {moves : List (Move Command)}
    (hmoves : ∀ m ∈ moves, ∀ disk, m ≠ .onDisk disk) :
    (w.run site.program moves).WritesIn site directory := by
  induction moves generalizing w with
  | nil => exact h
  | cons m moves ih =>
    have hkept : ∀ disk, m = .onDisk disk → w.store.FiledOn disk := fun disk heq =>
      absurd heq (hmoves m List.mem_cons_self disk)
    exact ih (h.moved hkept) fun m' hm' => hmoves m' (List.mem_cons_of_mem m hm')

/-- The disk of the store has its files. -/
theorem filedOn_diskOr (h : w.WritesIn site directory) (disk : Disk) :
    w.store.FiledOn (w.store.diskOr disk) := by
  obtain ⟨held, value, records, hintact⟩ := h.intact
  obtain ⟨a, written, hstep⟩ := hintact.durable.inStep
  have ha : w.store.archive = some a := hstep.durable
  exact ⟨a, ha, by rw [Store.diskOr, ha]; rfl⟩

/-- What is stored on the disk is what the store holds. -/
theorem stored_eq (h : w.WritesIn site directory) {disk : Disk} (hdisk : w.store.FiledOn disk)
    {name : String} (hname : Store.isName name = true) :
    disk.stored directory name = (w.store.view name).documents := by
  obtain ⟨held, value, records, hintact⟩ := h.intact
  exact hintact.durable.stored_eq hdisk hname

/-- The steps in the directory are records that may be stored, and a repository that is opened there
has them all. Nothing on the disk changes when it is opened. -/
theorem opens_again (h : w.WritesIn site directory) {disk : Disk} (hdisk : w.store.FiledOn disk)
    (hname : Store.isName site.steps = true) : ∃ value records,
      disk.stored directory site.steps = records.map StepRecord.toDocument ∧
      (∀ r ∈ records, r.counters.check = .ok ()) ∧
      ∀ c : Config, c.validate = .ok () → c.dataDirectory = some directory → c.site = site →
        ∃ s, Repository.ofConfig disk c = (.returned ⟨c, s⟩, disk) ∧ s.diskOr disk = disk ∧
          s.Durable directory ∧ Ledger site s value records := by
  obtain ⟨held, value, records, hintact⟩ := h.intact
  refine ⟨value, records, ?_, hintact.check, fun c hvalid hdirectory hsite =>
    hintact.opens_again hdisk hvalid hdirectory hsite⟩
  rw [h.stored_eq hdisk hname]
  exact hintact.ledger.documents

end World.WritesIn

end StepLedger

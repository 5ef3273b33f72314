import Mathlib.Algebra.GroupWithZero.Nat
import StepLedger.Proofs.CommandLine.Typed
import StepLedger.Proofs.Repository.Chronicle
import StepLedger.Proofs.Sequence.Serving

/-!
# Numbering from the command line

Each run of the program opens the directory anew, and what it allocates goes on where the run before it
stopped: the counter passes from one run to the next in the text of a snapshot. `numbers_go_on` says so
for a seed in an empty directory and any number of runs after it, each by a strategy of its own.
-/

namespace StepLedger

open Sequence

/-! ## Stores that count -/

namespace Store

/-- The store is open on the directory, loses nothing, and serves the collection. -/
structure Hosts (s : Store) (directory collection : String) : Prop where
  durable : s.Durable directory
  serves : s.Serves collection

/-- The counters of the ids and of the sequence are in the collection; the latter stands at the value. -/
structure Numbers (s : Store) (directory collection name : String) (value : Int64) : Prop
    extends s.Hosts directory collection where
  ids : ∃ id, s.lastValue? collection Config.defaultStepSequence = some id
  last : s.lastValue? collection name = some value

/-- The archive of the store is on the disk. -/
def IsOn (s : Store) (disk : Disk) : Prop := ∃ a, s.archive = some a ∧ a.disk = disk

variable {s s' : Store} {directory collection name : String} {value next : Int64} {disk : Disk}

/-- A counter that is advanced stands at its new value, and that of the ids is still there. -/
theorem Numbers.of_advances (hids : ∃ id, s.lastValue? collection Config.defaultStepSequence = some id)
    (hhosts : s'.Hosts directory collection) (hadvances : s.Advances s' collection name next) :
    s'.Numbers directory collection name next := by
  obtain ⟨id, hid⟩ := hids
  refine ⟨hhosts, ?_, hadvances.value⟩
  by_cases heq : Config.defaultStepSequence = name
  · exact ⟨next, heq ▸ hadvances.value⟩
  · refine ⟨id, ?_⟩
    rw [lastValue?, hadvances.counters _ heq]
    exact hid

theorem diskOr_of_isOn (h : s.IsOn disk) (other : Disk) : s.diskOr other = disk := by
  obtain ⟨a, ha, rfl⟩ := h
  rw [diskOr, ha]
  rfl

namespace Hosts

/-- What matters of the archive are the files and that nothing is refused. -/
theorem of_archive (h : s.Hosts directory collection) (hs' : s'.Durable directory) {a a' : Archive}
    (ha : s.archive = some a) (ha' : s'.archive = some a') (hroot : a'.directory = a.directory)
    (hfiles : a'.disk.files = a.disk.files) (hrefused : a'.disk.refused = none) :
    s'.Hosts directory collection := by
  obtain ⟨hfound, hadmits, hfree⟩ := h.serves.ready a ha
  refine ⟨hs', ⟨?_, ?_, ?_⟩⟩
  · exact check_eq_ok.2 ⟨hs'.opened, (check_eq_ok.1 h.serves.admitted).2⟩
  · intro archive harchive
    obtain rfl : a' = archive := Option.some.inj (ha'.symm.trans harchive)
    obtain ⟨⟨files, now, refused⟩, root, durability⟩ := a
    obtain ⟨⟨files', now', refused'⟩, root', durability'⟩ := a'
    cases hroot
    cases hfiles
    exact ⟨hfound, hadmits, hfree⟩
  · intro archive harchive
    obtain rfl : a' = archive := Option.some.inj (ha'.symm.trans harchive)
    exact hrefused

theorem under (h : s.Hosts directory collection) (hdisk : s.IsOn disk) (now : Calendar.Instant) :
    (s.under ⟨now, none⟩).Hosts directory collection := by
  obtain ⟨a, ha, -⟩ := hdisk
  exact h.of_archive (h.durable.under _) ha (archive_under ha _) rfl rfl rfl

theorem isOn_diskOr (h : s.Hosts directory collection) (disk : Disk) : s.IsOn (s.diskOr disk) := by
  obtain ⟨a, written, hstep⟩ := h.durable.inStep
  exact ⟨a, hstep.durable, (diskOr_of_isOn ⟨a, hstep.durable, rfl⟩ disk).symm⟩

/-- What operations do with the counters leaves a store of this kind. -/
theorem run {site : Site} {α : Type} {Q : α → Prop} {program : Program α}
    {outcome : Program.Outcome α} (h : s.Hosts directory site.counters)
    (hasks : program.Asks (fun request => site.Poses request ∧ request.collection = site.counters) Q)
    (hrun : program.run Store.answer s = (outcome, s')) : s'.Hosts directory site.counters := by
  have hserve : ∀ (s : Store) (request : Request), s.Hosts directory site.counters →
      site.Poses request ∧ request.collection = site.counters →
      (s.answer request).2.Hosts directory site.counters := by
    rintro s request h ⟨hposes, hcollection⟩
    obtain ⟨hkept, hdrop⟩ := hposes.durable
    rw [← hcollection] at h ⊢
    exact ⟨h.durable.answer hkept hdrop, h.serves.answer h.durable.wellFormed hdrop⟩
  have hafter := hasks.run (motive := fun s : Store => s.Hosts directory site.counters) hserve h
  rwa [hrun] at hafter

end Hosts

end Store

/-! ## Opening -/

/-- What a directory holds does not depend on the time. -/
theorem Archive.ofDirectory_under {disk made : Disk} {directory : String} {durability : Durability}
    {a : Archive} (h : ofDirectory disk directory durability = (.ok a, made))
    (condition : Disk.Condition) : ofDirectory (disk.under condition) directory durability =
      (.ok { a with disk := made.under condition }, made.under condition) := by
  rw [ofDirectory] at h ⊢
  dsimp only at h ⊢
  rw [show (disk.under condition).files = disk.files from rfl]
  split at h
  · cases h
    rfl
  · cases h

/-- The directory is empty, or can be made, and the file of the collection can be written in it. -/
structure Disk.Offers (disk : Disk) (directory collection : String) : Prop where
  named : directory ≠ ""
  bare : disk.Bare directory
  ready : ∃ archive made, Archive.ofDirectory disk directory .sync = (.ok archive, made) ∧
    archive.Ready collection

namespace CommandLine

open Store

variable {disk : Disk} {directory collection name : String} {s : Store} {value : Int64}

/-- The usual settings are valid with every collection of the counters that is admitted and is not that
of the steps. -/
theorem validate_config {a : Arguments} (hadmitted : isName a.sequenceCollection = true)
    (happart : a.sequenceCollection ≠ Config.defaultStepCollection) : a.config.validate = .ok () := by
  have hdatabase : ¬ a.config.database.isEmpty = true := by
    show ¬ "batch".isEmpty = true
    decide
  have hsteps : Config.checkName "step_execution_collection" a.config.stepCollection = .ok () :=
    if_neg (by show ¬ Text.allBlank "BATCH_STEP_EXECUTION" = true; decide)
  have hcounters : Config.checkName "sequence_collection" a.config.sequenceCollection = .ok () :=
    if_neg (by show ¬ Text.allBlank a.sequenceCollection = true; simp [not_allBlank_of_isName hadmitted])
  have hsequence : Config.checkName "step_execution_sequence" a.config.stepSequence = .ok () :=
    if_neg (by show ¬ Text.allBlank "STEP_EXECUTION_SEQ" = true; decide)
  have happart' : a.config.stepCollection ≠ a.config.sequenceCollection := happart.symm
  have hcap : ¬ a.config.descriptionCap = 0 := by
    show ¬ 2500 = 0
    decide
  simp only [Config.validate]
  rw [if_neg hdatabase, hsteps, hcounters, hsequence, if_neg happart', if_neg hcap]
  rfl

section

variable (hadmitted : isName collection = true) (happart : collection ≠ Config.defaultStepCollection)
  (strategy : Strategy) (command : Command) (now : Calendar.Instant)
include hadmitted happart

/-- The first opening makes the counter of the ids, and no other. -/
theorem ofConfig_offered (hdisk : disk.Offers directory collection) :
    ∃ s disk', Repository.ofConfig (disk.under ⟨now, none⟩)
        (Arguments.config ⟨directory, collection, strategy, command⟩) =
          (.returned ⟨Arguments.config ⟨directory, collection, strategy, command⟩, s⟩, disk') ∧
      s.Hosts directory collection ∧ s.IsOn disk' ∧
      s.lastValue? collection Config.defaultStepSequence = some 0 ∧
      ∀ other, other ≠ Config.defaultStepSequence → s.counter? collection other = none := by
  let c : Config := Arguments.config ⟨directory, collection, strategy, command⟩
  have hvalid : c.validate = .ok () := validate_config hadmitted happart
  obtain ⟨-, hbare, archive, made, hmade, hready⟩ := hdisk
  have hmade' := Archive.ofDirectory_under hmade ⟨now, none⟩
  obtain ⟨rfl, hfiles⟩ := Archive.ofDirectory_eq_ok hmade
  -- nothing is loaded from a directory without files
  have hempty : made.Bare directory := hfiles ▸ hbare.createDirectories
  obtain ⟨s, hload⟩ : ∃ s, ofArchive ⟨made.under ⟨now, none⟩, Path.ofText directory, .sync⟩ = .ok s := by
    have hnothing : Archive.loadAll ⟨made.under ⟨now, none⟩, Path.ofText directory, .sync⟩ = .ok [] :=
      Archive.loadAll_eq_ok.2 ⟨hready.directory, Archive.loadFiles_directories hempty⟩
    exact ⟨_, by rw [ofArchive, hnothing]; rfl⟩
  obtain ⟨harchive, hopened⟩ := archive_of_ofArchive hload
  have hs := wellFormed_of_ofArchive hload
  have hbare' : (disk.under ⟨now, none⟩).Bare directory := hbare
  have hstep := inStep_of_bare hbare' hmade' hload
  have hhosts : s.Hosts directory c.site.counters := by
    refine ⟨hstep.durable_of_blank hs hopened, check_eq_ok.2 ⟨hopened, hadmitted⟩, ?_, ?_⟩
    · intro a ha
      cases harchive.symm.trans ha
      exact ⟨hready.directory, hready.admits, hready.free⟩
    · intro a ha
      cases harchive.symm.trans ha
      rfl
  -- the counter of the ids is made
  have hblank : ∀ other, s.counter? collection other = none :=
    fun other => counter?_of_documents_nil (hstep.blank collection not_false)
  obtain ⟨s', hseed, hadvances⟩ := Counter.run_seed_new (Config.of_validate hvalid).1 hs hhosts.serves
    (hblank c.stepSequence) 0 defaultNote
  have hposes : (Counter.seed c.site.counters c.stepSequence 0 defaultNote).Asks (fun request =>
      c.site.Poses request ∧ request.collection = c.site.counters) fun _ => True :=
    Operation.asks_seed 0 defaultNote ⟨.seed c.stepSequence 0 defaultNote, rfl⟩
  have hopen := Repository.ofConfig_of_openStore hvalid
    ((c.openStore_eq rfl hmade').trans (by rw [hload])) hseed
  have hafter := hhosts.run hposes hseed
  refine ⟨s', _, hopen, hafter, hafter.isOn_diskOr _, hadvances.value, fun other hne => ?_⟩
  exact (hadvances.counters other hne).trans (hblank other)

/-- A later opening changes nothing. -/
theorem ofConfig_numbered (h : s.Numbers directory collection name value) (hdisk : s.IsOn disk) :
    ∃ s', Repository.ofConfig (disk.under ⟨now, none⟩)
        (Arguments.config ⟨directory, collection, strategy, command⟩) =
          (.returned ⟨Arguments.config ⟨directory, collection, strategy, command⟩, s'⟩,
            disk.under ⟨now, none⟩) ∧
      s'.Numbers directory collection name value ∧ s'.IsOn (disk.under ⟨now, none⟩) := by
  obtain ⟨id, hid⟩ := h.ids
  obtain ⟨a, ha, rfl⟩ := hdisk
  have halike : s.Alike (s.under ⟨now, none⟩) := fun _ => rfl
  have hhosts := h.toHosts.under ⟨a, ha, rfl⟩ now
  obtain ⟨s', hopen, hdurable, hdocuments, ha'⟩ := Repository.ofConfig_reopened
    (c := Arguments.config ⟨directory, collection, strategy, command⟩)
    (validate_config hadmitted happart) rfl hhosts.durable
    ((lastValue?_of_alike halike _ _).trans hid) (archive_under ha ⟨now, none⟩)
  have hlast : ∀ other, s'.lastValue? collection other = s.lastValue? collection other := fun other =>
    (lastValue?_of_documents (hdocuments collection) other).trans (lastValue?_of_alike halike _ _)
  refine ⟨s', hopen, ⟨?_, ⟨id, (hlast _).trans hid⟩, (hlast _).trans h.last⟩, ⟨_, ha', rfl⟩⟩
  exact hhosts.of_archive hdurable (archive_under ha _) ha' rfl rfl rfl

end

/-! ## Commands -/

theorem seed_of_returned {r : Repository} {initial : Int64} {note : Option String} {counter : Counter}
    {s' : Store} (h : (Counter.seed r.config.sequenceCollection name initial
      (note.getD defaultNote)).run Store.answer r.store = (.returned counter, s')) :
    seed r name initial note =
      (.success (counter.id ++ " = " ++ shownInt counter.value.toInt ++ "\n"), { r with store := s' }) := by
  rw [seed, Repository.run_of_store h]
  rfl

theorem next_of_returned {r : Repository} {output : String} {count : Nat} {n : Int64} {s' : Store}
    (h : ((r.config.allocator rounds).next name).run Store.answer r.store = (.returned n, s')) :
    next r name output (count + 1) =
      next { r with store := s' } name (output ++ shownInt n.toInt ++ "\n") count := by
  rw [next, Repository.run_of_store h]
  rfl

/-- The numbers after one, each on a line. -/
def lines (value : Int) (count : Nat) : String :=
  String.join ((List.range count).map fun i : Nat => shownInt (value + i + 1) ++ "\n")

theorem lines_succ (value : Int) (count : Nat) :
    lines value (count + 1) = shownInt (value + 1) ++ "\n" ++ lines (value + 1) count := by
  have hlater : ∀ i : Nat, shownInt (value + (i + 1 : Nat) + 1) = shownInt (value + 1 + i + 1) :=
    fun i => congrArg shownInt (by omega)
  rw [lines, List.range_succ_eq_map, List.map_cons, String.join_cons, List.map_map, lines]
  simp only [Function.comp_def, Nat.succ_eq_add_one, hlater]
  rw [Int.natCast_zero, Int.add_zero]

/-- As many values are printed as are asked for, and the counter stands at the last of them. -/
theorem next_numbered {r : Repository} (hname : checkName name = .ok ())
    (h : r.store.Numbers directory r.config.sequenceCollection name value) {count : Nat}
    (hbound : value.toInt + count ≤ 9223372036854775807) (output : String) :
    ∃ s' last, next r name output count = (.success (output ++ lines value.toInt count),
        { r with store := s' }) ∧ last.toInt = value.toInt + count ∧
      s'.Numbers directory r.config.sequenceCollection name last := by
  induction count generalizing r value output with
  | zero =>
    refine ⟨r.store, value, ?_, by simp, h⟩
    rw [next, show lines value.toInt 0 = "" from rfl, String.append_empty]
  | succ count ih =>
    cases hsum : Update.addChecked value 1 with
    | none =>
      have hone : (1 : Int64).toInt = 1 := rfl
      have hlower := value.le_toInt
      rcases Update.addChecked_eq_none_iff.1 hsum with hsum | hsum <;> omega
    | some n =>
      have hn := Update.addChecked_eq_some_iff.1 hsum
      have hone : (1 : Int64).toInt = 1 := rfl
      obtain ⟨s', hnext, hadvances⟩ := Allocator.run_next (a := r.config.allocator rounds) hname
        Nat.one_pos h.durable.wellFormed h.serves h.last hsum
      have hposes : ((r.config.site.allocator (r.config.client rounds)).next name).Asks (fun request =>
          r.config.site.Poses request ∧ request.collection = r.config.site.counters) fun _ => True :=
        Operation.asks_next ⟨.read name, rfl⟩ (fun value next => ⟨.swap name value next, rfl⟩)
          ⟨.increment name, rfl⟩
      have hafter := Numbers.of_advances h.ids (h.toHosts.run hposes hnext) hadvances
      obtain ⟨s'', last, hrest, hlast, hnumbers⟩ := ih (r := { r with store := s' }) hafter
        (by omega) (output ++ shownInt n.toInt ++ "\n")
      refine ⟨s'', last, ?_, by omega, hnumbers⟩
      rw [next_of_returned hnext, hrest, lines_succ, hn, hone, String.append_assoc,
        String.append_assoc, String.append_assoc]

/-! ## Runs -/

theorem run_of_opened {arguments : List String} {a : Arguments} {disk' : Disk} {r : Repository}
    {transcript : Transcript} {s' : Store} (hread : Arguments.ofList arguments = .ok a)
    (hopen : Repository.ofConfig disk a.config = (.returned r, disk'))
    (hrun : a.command.run r = (transcript, { r with store := s' })) :
    run disk arguments = (transcript, s'.diskOr disk') := by
  rw [run, hread]
  dsimp only
  rw [Arguments.run, hopen]
  dsimp only [result]
  rw [hrun]

/-- Where the counter of a sequence stands when it has been seeded first: the counter of the ids has been
made by then, because the directory has been opened. -/
def firstValue (name : String) (initial : Int64) : Int64 :=
  if name = Config.defaultStepSequence then 0 else initial

/-- What is printed by runs that allocate so many values each, one run after the other. -/
def pages (value : Int) : List Nat → List Transcript
  | [] => []
  | count :: counts => .success (lines value count) :: pages (value + count) counts

/-- What is printed by runs of the program, one after the other on one disk, each at a time of its
own. -/
def runs (disk : Disk) : List (Calendar.Instant × List String) → List Transcript
  | [] => []
  | (now, arguments) :: rest =>
    let (transcript, disk) := run (disk.under ⟨now, none⟩) arguments
    transcript :: runs disk rest

section

variable (hadmitted : isName collection = true) (happart : collection ≠ Config.defaultStepCollection)
  (hname : checkName name = .ok ()) {strategy : Strategy} {arguments : List String}
  (now : Calendar.Instant)
include hadmitted happart hname

/-- A run that seeds the sequence in an empty directory. -/
theorem run_seed (hdisk : disk.Offers directory collection) {initial : Int64} {note : Option String}
    (hread : Arguments.ofList arguments =
      .ok ⟨directory, collection, strategy, .seed name initial note⟩) :
    ∃ (s : Store) (disk' : Disk), run (disk.under ⟨now, none⟩) arguments =
        (.success (name ++ " = " ++ shownInt (firstValue name initial).toInt ++ "\n"), disk') ∧
      s.Numbers directory collection name (firstValue name initial) ∧ s.IsOn disk' := by
  obtain ⟨s, disk', hopen, hhosts, hon, hids, hnone⟩ :=
    ofConfig_offered hadmitted happart strategy (.seed name initial note) now hdisk
  by_cases heq : name = Config.defaultStepSequence
  · obtain ⟨a, ha, hdisk'⟩ := hon
    obtain ⟨counter, hseed, hid, hvalue⟩ := Counter.run_seed_idle hname hhosts.durable.wellFormed
      hhosts.serves (heq ▸ hids) ha initial (note.getD defaultNote)
    have hrun := run_of_opened hread hopen (seed_of_returned hseed)
    rw [hid, hvalue] at hrun
    rw [firstValue, if_pos heq]
    exact ⟨s, _, hrun, ⟨hhosts, ⟨0, hids⟩, heq ▸ hids⟩, hhosts.isOn_diskOr _⟩
  · obtain ⟨s', hseed, hadvances⟩ := Counter.run_seed_new hname hhosts.durable.wellFormed
      hhosts.serves (hnone name heq) initial (note.getD defaultNote)
    have hrun := run_of_opened hread hopen (seed_of_returned hseed)
    let site : Site := (Arguments.config ⟨directory, collection, strategy, .seed name initial note⟩).site
    have hposes : (Counter.seed site.counters name initial (note.getD defaultNote)).Asks
        (fun request => site.Poses request ∧ request.collection = site.counters) fun _ => True :=
      Operation.asks_seed initial _ ⟨.seed name initial _, rfl⟩
    have hafter : s'.Hosts directory site.counters := hhosts.run hposes hseed
    rw [firstValue, if_neg heq]
    exact ⟨s', _, hrun, .of_advances ⟨0, hids⟩ hafter hadvances, hafter.isOn_diskOr _⟩

/-- A run that allocates values of the sequence. -/
theorem run_next (h : s.Numbers directory collection name value) (hon : s.IsOn disk) {count : UInt32}
    (hread : Arguments.ofList arguments = .ok ⟨directory, collection, strategy, .next name count⟩)
    (hbound : value.toInt + count.toNat ≤ 9223372036854775807) :
    ∃ (s' : Store) (last : Int64) (disk' : Disk), run (disk.under ⟨now, none⟩) arguments =
        (.success (lines value.toInt count.toNat), disk') ∧ last.toInt = value.toInt + count.toNat ∧
      s'.Numbers directory collection name last ∧ s'.IsOn disk' := by
  obtain ⟨s', hopen, hnumbers, -⟩ := ofConfig_numbered hadmitted happart strategy (.next name count)
    now h hon
  obtain ⟨s'', last, hnext, hlast, hafter⟩ := next_numbered
    (r := ⟨Arguments.config ⟨directory, collection, strategy, .next name count⟩, s'⟩) hname hnumbers
    hbound ""
  have hrun := run_of_opened hread hopen hnext
  rw [String.empty_append] at hrun
  exact ⟨s'', last, _, hrun, hlast, hafter, hafter.isOn_diskOr _⟩

omit now in
/-- Runs that allocate, each going on where the one before it stopped. -/
theorem runs_next (h : s.Numbers directory collection name value) (hon : s.IsOn disk)
    {typed : List (Calendar.Instant × List String)} {nexts : List (Strategy × UInt32)}
    (hread : List.Forall₂ (fun run next => Arguments.ofList run.2 =
      .ok ⟨directory, collection, next.1, .next name next.2⟩) typed nexts)
    (hbound : value.toInt + (nexts.map fun next => next.2.toNat).sum ≤ 9223372036854775807) :
    runs disk typed = pages value.toInt (nexts.map fun next => next.2.toNat) := by
  induction hread generalizing s disk value with
  | nil => rfl
  | @cons run next typed nexts hfirst hrest ih =>
    obtain ⟨now, arguments⟩ := run
    rw [List.map_cons, List.sum_cons] at hbound
    obtain ⟨s', last, disk', hrun, hlast, hnumbers, hon'⟩ :=
      run_next hadmitted happart hname now h hon hfirst (by omega)
    rw [runs, hrun, List.map_cons, pages, ← hlast]
    exact congrArg _ (ih hnumbers hon' (by omega))

end

/-- What the program prints of a sequence. Every name and every number can be typed. When a sequence is
seeded in an empty directory, the first run prints where its counter stands, which is the initial value,
or 0 for the sequence of the ids. Each run after it, by whatever strategy and at whatever time, prints the
numbers after the last one that was printed, as many as it is asked for, up to the largest word. -/
theorem numbers_go_on (hdisk : disk.Offers directory collection)
    (hadmitted : isName collection = true) (happart : collection ≠ Config.defaultStepCollection)
    (hname : checkName name = .ok ()) (strategy : Strategy) (initial : Int64) :
    let typed := Arguments.typed directory collection strategy
    (Arguments.ofList (typed ["seed", attached "initial" (shownInt initial.toInt), "--", name]) =
        .ok ⟨directory, collection, strategy, .seed name initial none⟩ ∧
      (Plain name → 0 ≤ initial.toInt →
        Arguments.ofList (typed ["seed", name, "--initial", shownInt initial.toInt]) =
          .ok ⟨directory, collection, strategy, .seed name initial none⟩) ∧
      ∀ count, Arguments.ofList (typed ["next", attached "count" (shownInt count.toNat), "--", name]) =
          .ok ⟨directory, collection, strategy, .next name count⟩ ∧
        (Plain name → Arguments.ofList (typed ["next", name, "--count", shownInt count.toNat]) =
          .ok ⟨directory, collection, strategy, .next name count⟩)) ∧
    ∀ (now : Calendar.Instant) (seeding : List String) (note : Option String)
      (later : List (Calendar.Instant × List String)) (nexts : List (Strategy × UInt32)),
      Arguments.ofList seeding = .ok ⟨directory, collection, strategy, .seed name initial note⟩ →
      List.Forall₂ (fun run next => Arguments.ofList run.2 =
        .ok ⟨directory, collection, next.1, .next name next.2⟩) later nexts →
      (firstValue name initial).toInt + (nexts.map fun next => next.2.toNat).sum ≤
        9223372036854775807 →
      runs disk ((now, seeding) :: later) =
        .success (name ++ " = " ++ shownInt (firstValue name initial).toInt ++ "\n") ::
          pages (firstValue name initial).toInt (nexts.map fun next => next.2.toNat) := by
  intro typed
  have hreads : ∀ {command : String} {words : List String} {what : Command},
      command ∈ Command.names → Command.ofList command words = .ok what →
      Arguments.ofList (typed (command :: words)) = .ok ⟨directory, collection, strategy, what⟩ :=
    fun hcommand hwords => Arguments.ofList_typed hdisk.named hcommand hwords collection strategy
  refine ⟨⟨hreads (by decide) (Command.ofList_seed name initial), fun hplain hinitial =>
    hreads (by decide) (Command.ofList_seed_plain hplain hinitial), fun count =>
      ⟨hreads (by decide) (Command.ofList_next name count), fun hplain =>
        hreads (by decide) (Command.ofList_next_plain hplain count)⟩⟩, ?_⟩
  intro now seeding note later nexts hseeding hnexts hbound
  obtain ⟨s, disk', hrun, hnumbers, hon⟩ := run_seed hadmitted happart hname now hdisk hseeding
  rw [runs, hrun]
  exact congrArg _ (runs_next hadmitted happart hname hnumbers hon hnexts hbound)

/-- The empty directory of a drawer. -/
theorem offers_drawer : (Archive.drawer none).disk.Offers "data" Config.defaultSequenceCollection where
  named := by decide
  bare := nofun
  ready := ⟨_, _, rfl, rfl, ⟨by decide, by decide⟩, rfl⟩

/-- A sequence that starts below zero, in runs that allocate by turns in one way and the other. -/
theorem numbers_go_on_in_drawer :
    let now := (Archive.drawer none).disk.now
    (Archive.drawer none).disk.Offers "data" "BATCH_SEQUENCES" ∧
    isName "BATCH_SEQUENCES" = true ∧ "BATCH_SEQUENCES" ≠ Config.defaultStepCollection ∧
    checkName "S" = .ok () ∧
    runs (Archive.drawer none).disk
      [(now, ["--data-dir", "data", "seed", "S", "--initial=-2"]),
        (now, ["--data-dir", "data", "next", "S", "--count", "3"]),
        (now, ["--data-dir", "data", "--strategy", "cas", "next", "S"])] =
      [.success "S = -2\n", .success "-1\n0\n1\n", .success "2\n"] := by
  intro now
  have hadmitted : isName "BATCH_SEQUENCES" = true := by decide
  have happart : "BATCH_SEQUENCES" ≠ Config.defaultStepCollection := by decide
  have hname : checkName "S" = .ok () := by decide
  refine ⟨offers_drawer, hadmitted, happart, hname, ?_⟩
  obtain ⟨-, hruns⟩ := numbers_go_on offers_drawer hadmitted happart hname .atomicIncrement (-2)
  have hseeding : Arguments.ofList ["--data-dir", "data", "seed", "S", "--initial=-2"] =
      .ok ⟨"data", "BATCH_SEQUENCES", .atomicIncrement, .seed "S" (-2) none⟩ := by decide
  refine (hruns now _ none _ [(.atomicIncrement, 3), (.compareAndSwap, 1)] hseeding
    (.cons (by decide) (.cons (by decide) .nil)) (by decide)).trans ?_
  decide

/-- The sequence of the ids has been seeded before it is. -/
theorem seed_of_ids_is_ignored :
    (Archive.drawer none).disk.Offers "data" "BATCH_SEQUENCES" ∧
    checkName "STEP_EXECUTION_SEQ" = .ok () ∧
    Arguments.ofList ["--data-dir", "data", "seed", "STEP_EXECUTION_SEQ", "--initial", "5"] =
      .ok ⟨"data", "BATCH_SEQUENCES", .atomicIncrement, .seed "STEP_EXECUTION_SEQ" 5 none⟩ ∧
    (run (Archive.drawer none).disk
      ["--data-dir", "data", "seed", "STEP_EXECUTION_SEQ", "--initial", "5"]).1 =
        .success "STEP_EXECUTION_SEQ = 0\n" :=
  ⟨offers_drawer, by decide, by decide, by decide +kernel⟩

end CommandLine

end StepLedger

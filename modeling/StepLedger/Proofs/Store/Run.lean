import StepLedger.Proofs.Store.Failure
import StepLedger.Proofs.Store.InStep

/-!
# Runs on a directory of their own

A store that is opened in an empty directory (`Store.OpenedNew`) answers requests while the time
goes on and the disk refuses now one operation and now another (`Store.Run`). All along it is in step
with its archive (`Run.inStep`), which means that the files are those of the collections
(`Run.files_of_collections`).
-/

namespace StepLedger

/-- There are no files in the directory. -/
def Disk.Bare (disk : Disk) (directory : String) : Prop :=
  ∀ entry ∈ disk.files.children (Path.ofText directory).place, entry.2 = .directory

theorem Disk.bare_of_children_eq_nil {disk : Disk} {directory : String}
    (hempty : disk.files.children (Path.ofText directory).place = []) : disk.Bare directory :=
  fun entry hentry => absurd (hempty ▸ hentry) List.not_mem_nil

/-- To make directories makes no files. -/
theorem Disk.Bare.createDirectories {disk : Disk} {directory : String} (h : disk.Bare directory) :
    { disk with files := (disk.files.createDirectories (Path.ofText directory)).2 }.Bare
      directory := by
  rintro ⟨file, node⟩ hentry
  rw [FileSystem.mem_children] at hentry
  obtain hold | hnew := FileSystem.createDirectories_adds _ _ hentry
  · exact h _ (FileSystem.mem_children.2 hold)
  · exact hnew

namespace Store

/-- The store with its disk in some condition. -/
def under (s : Store) (condition : Disk.Condition) : Store :=
  { s with archive := s.archive.map fun archive =>
    { archive with disk := ⟨archive.disk.files, condition.now, condition.refused⟩ } }

/-- The store was opened in a directory that was empty or was not there. -/
def OpenedNew (directory : String) (s : Store) : Prop :=
  ∃ disk durability archive disk', Archive.ofDirectory disk directory durability = (.ok archive, disk') ∧
    disk.files.children (Path.ofText directory).place = [] ∧ ofArchive archive = .ok s

/-- The stores that permitted requests lead to, each with the collections that have been written to
since they were created. Every request finds the disk in a condition of its own. Collections are
dropped with success. -/
inductive Run (permitted : Request → Prop) (s₀ : Store) : Store → (String → Prop) → Prop
  | start : Run permitted s₀ s₀ fun _ => False
  | answer {s : Store} {written : String → Prop} (condition : Disk.Condition) (request : Request)
      (h : Run permitted s₀ s written) (hpermitted : permitted request)
      (hdrop : ∀ name, request = .dropCollection name →
        ((s.under condition).drop name).1 = .ok ()) :
      Run permitted s₀ ((s.under condition).answer request).2
        (nowWritten written s ((s.under condition).answer request).2)

variable {directory : String} {s₀ s : Store} {a : Archive} {written : String → Prop}
  {permitted : Request → Prop}

theorem InStep.under (h : InStep directory s a written) (condition : Disk.Condition) :
    ∃ a', InStep directory (s.under condition) a' written :=
  ⟨{ a with disk := ⟨a.disk.files, condition.now, condition.refused⟩ },
    { h with durable := by rw [Store.under, h.durable]; rfl }⟩

/-- What is opened in a directory without files is in step with it. -/
theorem inStep_of_bare {disk disk' : Disk} {durability : Durability} (hbare : disk.Bare directory)
    (hmade : Archive.ofDirectory disk directory durability = (.ok a, disk'))
    (hopen : ofArchive a = .ok s) : InStep directory s a fun _ => False := by
  obtain ⟨rfl, hdisk⟩ := Archive.ofDirectory_eq_ok hmade
  have hdirectories : disk'.Bare directory := hdisk ▸ hbare.createDirectories
  obtain ⟨cs, hload, hstore⟩ := Except.bind_eq_ok.1 hopen
  obtain ⟨hfound, hfiles⟩ := Archive.loadAll_eq_ok.1 hload
  obtain rfl : [] = cs := Except.ok.inj ((Archive.loadFiles_directories hdirectories).symm.trans hfiles)
  cases hstore
  exact {
    durable := rfl
    rooted := rfl
    found := hfound
    named := nofun
    there := nofun
    filed := nofun
    blank := fun _ _ => rfl
    only := fun file text hmem => absurd (hdirectories _ hmem) nofun }

/-- Where nothing has been written to, there are no files. -/
theorem InStep.bare (h : InStep directory s a written) (hnone : ∀ name, ¬ written name) :
    a.disk.Bare directory := by
  rintro ⟨file, node⟩ hentry
  cases node with
  | directory => rfl
  | file text =>
    rw [← h.rooted] at hentry
    obtain ⟨name, hw, -⟩ := h.only file text hentry
    exact absurd hw (hnone name)

theorem OpenedNew.inStep (h : OpenedNew directory s) :
    ∃ a, InStep directory s a fun _ => False := by
  obtain ⟨disk, durability, archive, disk', hmade, hempty, hopen⟩ := h
  exact ⟨archive, inStep_of_bare (Disk.bare_of_children_eq_nil hempty) hmade hopen⟩

theorem OpenedNew.wellFormed (h : OpenedNew directory s) : s.WellFormed := by
  obtain ⟨_, _, _, _, -, -, hopen⟩ := h
  exact wellFormed_of_ofArchive hopen

theorem Run.wellFormed (h : Run permitted s₀ s written) (hopen : OpenedNew directory s₀) :
    s.WellFormed := by
  induction h with
  | start => exact hopen.wellFormed
  | @answer s _ condition request _ _ _ ih =>
    exact WellFormed.answer (s := s.under condition) ih request

/-- All along a run store and archive are in step. -/
theorem Run.inStep (h : Run permitted s₀ s written) (hopen : OpenedNew directory s₀) :
    ∃ a, InStep directory s a written := by
  induction h with
  | start => exact hopen.inStep
  | @answer s written condition request hrun _ hdrop ih =>
    obtain ⟨a, ha⟩ := ih
    obtain ⟨a', ha'⟩ := ha.under condition
    exact ha'.answer (s := s.under condition) (hrun.wellFormed hopen) request hdrop

/-- After every request, whatever it answered, each collection is in its file, with exactly its
documents in their order, or it is empty and has not been written to since it was created and has no
file. The directory holds no other files. -/
theorem Run.files_of_collections (h : Run permitted s₀ s written) (hopen : OpenedNew directory s₀) :
    ∃ a, s.archive = some a ∧ a.directory = Path.ofText directory ∧
      (∀ name c, s.collection? name = some c →
        (∃ now, a.disk.files.find? (a.file name) =
          some (.file (Snapshot.mk 1 name now c.documents).text)) ∨
        c.documents = [] ∧ ¬ written name ∧
          ∀ text, (name ++ ".json", .file text) ∉ a.disk.files.children a.directory.place) ∧
      ∀ file text, (file, .file text) ∈ a.disk.files.children a.directory.place →
        ∃ name c now, s.collection? name = some c ∧ file = name ++ ".json" ∧
          text = (Snapshot.mk 1 name now c.documents).text := by
  obtain ⟨a, hstep⟩ := h.inStep hopen
  have hsnapshot : ∀ {name c}, s.collection? name = some c → ∀ now,
      Snapshot.ofCollection now (s.view name) = ⟨1, name, now, c.documents⟩ := by
    intro name c hc now
    have hname := (h.wellFormed hopen name).2
    rw [Snapshot.ofCollection, hname, view, hc]
    rfl
  have hfile : ∀ name, Archive.fileName name = name ++ ".json" := fun name => by
    rw [Archive.fileName, String.append_assoc]
    rfl
  refine ⟨a, hstep.durable, hstep.rooted, fun name c hc => ?_, fun file text hmem => ?_⟩
  · by_cases hw : written name
    · obtain ⟨text, hnode, now, rfl⟩ := hstep.filed name hw
      have hname := hstep.named name (Option.isSome_of_mem hc)
      refine .inl ⟨now, ?_⟩
      rw [Archive.find?_file hstep.found hname (hstep.there name hw).2, hnode, hsnapshot hc]
    · have hblank := hstep.blank name hw
      rw [view, hc] at hblank
      refine .inr ⟨hblank, hw, fun text hmem => ?_⟩
      obtain ⟨other, hother, heq, -⟩ := hstep.only _ text hmem
      rw [← hfile, Archive.fileName_inj] at heq
      exact hw (heq ▸ hother)
  · obtain ⟨name, hw, rfl, now, rfl⟩ := hstep.only file text hmem
    obtain ⟨c, hc⟩ := Option.isSome_iff_exists.1 (hstep.there name hw).1
    exact ⟨name, c, now, hc, hfile name, by rw [hsnapshot hc]⟩

theorem openedNew_cabinet : OpenedNew "data" (cabinet none) :=
  ⟨(Archive.drawer none).disk, .sync, .drawer none, (Archive.drawer none).disk, rfl, rfl, rfl⟩

/-- A page that could not be written at first is in the file in the end. -/
theorem files_of_page : ∃ s written a, OpenedNew "data" (cabinet none) ∧
    Run (fun _ => True) (cabinet none) s written ∧ s.archive = some a ∧ s.names = ["pages"] ∧
      ∃ now, a.disk.files.find? (a.file "pages") =
        some (.file (Snapshot.mk 1 "pages" now [.page]).text) := by
  have hstart : Run (fun _ => True) (cabinet none) (cabinet none) _ := .start
  have hfirst := hstart.answer ⟨(Archive.drawer none).disk.now, some .write⟩
    (.insertOne "pages" .page) trivial nofun
  have hsecond := hfirst.answer ⟨(Archive.drawer none).disk.now, none⟩ (.insertOne "pages" .page)
    trivial nofun
  obtain ⟨a, ha, -, hfiles, -⟩ := hsecond.files_of_collections openedNew_cabinet
  refine ⟨_, _, a, openedNew_cabinet, hsecond, ha, rfl, ?_⟩
  obtain hfile | ⟨hnone, -⟩ := hfiles "pages" _ rfl
  · exact hfile
  · cases hnone

end Store

end StepLedger

import StepLedger.Proofs.Program
import StepLedger.Proofs.Store.Outcome
import StepLedger.Proofs.Store.Reopening

/-!
# Stores that lose nothing

A store is `Durable` in a directory if it is in step with its archive there and all its documents are
of the kind that a snapshot keeps. It stays so while programs are run on it, whatever the condition
in which each request finds the disk (`Durable.run`), and when the directory is opened again it is
there with the same documents (`Durable.reopen`).
-/

namespace StepLedger

/-- The value is kept by a snapshot when it is in a field of a document. -/
def Json.Value.Durable (value : Json.Value) : Prop :=
  value.Whole ∧ value.Fits (Json.Tree.maxNesting - 3)

theorem Json.durable_ofInt64 (n : Int64) : (Json.ofInt64 n).value.Durable := ⟨trivial, trivial⟩

theorem Json.durable_string (text : String) : (Json.string text).value.Durable := ⟨trivial, trivial⟩

/-- The documents in the snapshot of a collection in a directory, if there is one that can be read. -/
def Disk.stored (disk : Disk) (directory collection : String) : List Document :=
  match Archive.load ⟨disk, Path.ofText directory, .sync⟩ collection with
  | .ok (some c) => c.documents
  | _ => []

/-! ## Disks that change -/

/-- A store and the conditions in which its next requests find the disk, which then stays as it is. -/
structure Scheduled where
  store : Store
  conditions : List Disk.Condition

namespace Scheduled

/-- The store as the next request finds it. -/
def met (t : Scheduled) : Store :=
  match t.conditions with
  | [] => t.store
  | condition :: _ => t.store.under condition

/-- Answer a request in the next condition. -/
def answer : Server Scheduled
  | t, request =>
    let (result, store) := t.met.answer request
    (result, ⟨store, t.conditions.tail⟩)

theorem alike_met (t : Scheduled) : t.store.Alike t.met := by
  obtain ⟨s, conditions⟩ := t
  cases conditions with
  | nil => exact .refl s
  | cons condition conditions => exact fun _ => rfl

end Scheduled

namespace Store

variable {directory : String} {s s' : Store} {name : String} {a : Archive} {written : String → Prop}

/-! ## Durable stores -/

/-- The store is open on the directory and in step with its archive there, and a snapshot keeps all
its documents. -/
structure Durable (directory : String) (s : Store) : Prop where
  inStep : ∃ a written, InStep directory s a written
  wellFormed : s.WellFormed
  kept : s.All Json.Value.Durable
  opened : s.closed = false

/-- Nothing is lost where nothing has been written to. -/
theorem InStep.durable_of_blank {a : Archive} (h : InStep directory s a fun _ => False)
    (hs : s.WellFormed) (hopened : s.closed = false) : s.Durable directory := by
  refine ⟨⟨a, _, h⟩, hs, fun name d hd => ?_, hopened⟩
  rw [h.blank name not_false] at hd
  cases hd

theorem Durable.under (h : s.Durable directory) (condition : Disk.Condition) :
    (s.under condition).Durable directory := by
  obtain ⟨a, written, hstep⟩ := h.inStep
  obtain ⟨a', hstep'⟩ := hstep.under condition
  exact ⟨⟨a', written, hstep'⟩, h.wellFormed, h.kept, h.opened⟩

theorem Durable.answer (h : s.Durable directory) {request : Request}
    (hkept : request.All Json.Value.Durable) (hdrop : ∀ name, request ≠ .dropCollection name) :
    (s.answer request).2.Durable directory := by
  obtain ⟨a, written, hstep⟩ := h.inStep
  obtain ⟨a', hstep'⟩ := hstep.answer h.wellFormed request fun name heq => absurd heq (hdrop name)
  exact ⟨⟨a', _, hstep'⟩, h.wellFormed.answer request,
    h.kept.answer Json.durable_ofInt64 h.wellFormed hkept,
    (closed_answer h.wellFormed request).trans h.opened⟩

theorem Durable.met {t : Scheduled} (h : t.store.Durable directory) : t.met.Durable directory := by
  obtain ⟨s, conditions⟩ := t
  cases conditions with
  | nil => exact h
  | cons condition conditions => exact h.under condition

/-- A program that drops no collection and puts nothing into documents but what a snapshot keeps. -/
theorem Durable.run {α : Type} {Q : α → Prop} {program : Program α}
    (hprogram : program.Asks (fun request => request.All Json.Value.Durable ∧
      ∀ name, request ≠ .dropCollection name) Q) {t : Scheduled} (h : t.store.Durable directory) :
    (program.run Scheduled.answer t).2.store.Durable directory := by
  refine hprogram.run (motive := fun t : Scheduled => t.store.Durable directory) ?_ h
  exact fun t request ht hrequest => ht.met.answer hrequest.1 hrequest.2

/-- A collection with documents is served. -/
theorem Durable.check (h : s.Durable directory) (hsome : (s.view name).documents ≠ []) :
    s.check name = .ok () := by
  obtain ⟨a, written, hstep⟩ := h.inStep
  refine check_eq_ok.2 ⟨h.opened, hstep.named name ?_⟩
  by_contra hnone
  rw [Bool.not_eq_true, Option.isSome_eq_false_iff, Option.isNone_iff_eq_none] at hnone
  exact hsome (by rw [view, hnone]; rfl)

/-- A collection that has been written to is loaded from its snapshot. -/
theorem InStep.load (h : InStep directory s a written) (hs : s.WellFormed)
    (hdurable : ∀ d ∈ (s.view name).documents, d.Durable) (hname : isName name = true)
    (hw : written name) : a.load name = .ok (some { s.view name with revision := 0 }) := by
  obtain ⟨text, hnode, now, htext⟩ := h.filed name hw
  have hread : Snapshot.ofText? text = some (Snapshot.ofCollection now.carried (s.view name)) := by
    rw [htext]
    exact Snapshot.ofText?_ofCollection hdurable
  unfold Archive.load
  rw [Archive.find?_file h.found hname (h.there name hw).2, hnode]
  dsimp only
  rw [Archive.read, hread]
  dsimp only
  rw [Except.mapError_ok, Except.ok_bind, Archive.restore_snapshot (hs name).1]
  rfl

/-- No collection is loaded where none has been written to. -/
theorem InStep.load_of_not_written (h : InStep directory s a written) (hname : isName name = true)
    (hw : ¬ written name) (c : Collection) : a.load name ≠ .ok (some c) := by
  intro hload
  unfold Archive.load at hload
  rw [Archive.file_of_isName hname, Archive.find?_slot h.found] at hload
  split at hload
  · cases hload
  · next node hnode =>
    obtain ⟨snapshot, hread, -⟩ := Except.bind_eq_ok.1 hload
    rw [Option.ite_none_right_eq_some] at hnode
    cases node with
    | directory => cases hread
    | file text =>
      obtain ⟨other, hother, heq, -⟩ := h.only _ text
        (FileSystem.mem_children.2 (FileSystem.mem_nodes_of_node? hnode.2))
      exact hw (Archive.fileName_inj.1 heq ▸ hother)

/-- The files of the store are those on the disk. -/
def FiledOn (s : Store) (disk : Disk) : Prop := ∃ a, s.archive = some a ∧ a.disk.files = disk.files

/-- What is stored on the disk is what is in the store. -/
theorem Durable.stored_eq (h : s.Durable directory) {disk : Disk} (hdisk : s.FiledOn disk)
    (hname : isName name = true) : disk.stored directory name = (s.view name).documents := by
  obtain ⟨a, written, hstep⟩ := h.inStep
  obtain ⟨b, hb, hfiles⟩ := hdisk
  obtain rfl : a = b := Option.some.inj (hstep.durable.symm.trans hb)
  have hload : Archive.load ⟨disk, Path.ofText directory, .sync⟩ name = a.load name := by
    unfold Archive.load Archive.file
    rw [hfiles, hstep.rooted]
  unfold Disk.stored
  rw [hload]
  by_cases hw : written name
  · have hdurable : ∀ d ∈ (s.view name).documents, d.Durable := h.kept name
    rw [hstep.load h.wellFormed hdurable hname hw]
  · rw [hstep.blank name hw]
    split
    · next c heq => exact absurd heq (hstep.load_of_not_written hname hw c)
    · rfl

/-! ## Opening again -/

theorem archive_of_ofArchive {a : Archive} (h : ofArchive a = .ok s) :
    s.archive = some a ∧ s.closed = false := by
  obtain ⟨cs, -, hs⟩ := Except.bind_eq_ok.1 h
  cases hs
  exact ⟨rfl, rfl⟩

/-- What is read from the archive of a store is in step with it. -/
theorem InStep.of_revisions {a : Archive} {written : String → Prop}
    (h : InStep directory s a written) (durability : Durability)
    (harchive : s'.archive = some { a with durability })
    (hthere : ∀ name, written name → s'.collection? name = some { s.view name with revision := 0 })
    (hgone : ∀ name, ¬ written name → s'.collection? name = none) :
    InStep directory s' { a with durability } written := by
  have hsnapped : ∀ {name text}, written name → s.Snapped name text → s'.Snapped name text := by
    rintro name text hw ⟨now, rfl⟩
    refine ⟨now, ?_⟩
    rw [view, view, hthere name hw]
    rfl
  exact {
    durable := harchive
    rooted := h.rooted
    found := h.found
    named := fun name hsome => by
      by_cases hw : written name
      · exact h.named name (h.there name hw).1
      · rw [hgone name hw] at hsome
        cases hsome
    there := fun name hw => ⟨by rw [hthere name hw]; rfl, (h.there name hw).2⟩
    filed := fun name hw => by
      obtain ⟨text, hnode, htext⟩ := h.filed name hw
      exact ⟨text, hnode, hsnapped hw htext⟩
    blank := fun name hw => by rw [view, hgone name hw]; rfl
    only := fun file text hfile => by
      obtain ⟨name, hw, heq, htext⟩ := h.only file text hfile
      exact ⟨name, hw, heq, hsnapped hw htext⟩ }

/-- To open the directory of the store again changes no file and gives a store with the same
documents. -/
theorem Durable.reopen (h : s.Durable directory) (durability : Durability) :
    ∃ a s', s.archive = some a ∧
      Archive.ofDirectory a.disk directory durability = (.ok { a with durability }, a.disk) ∧
      ofArchive { a with durability } = .ok s' ∧ s'.archive = some { a with durability } ∧
      s'.Durable directory ∧ ∀ name, (s'.view name).documents = (s.view name).documents := by
  obtain ⟨a, written, hstep⟩ := h.inStep
  have hdurable : ∀ name, ∀ d ∈ (s.view name).documents, d.Durable := h.kept
  obtain ⟨hmade, s', hopen, hcollections⟩ := hstep.reopen h.wellFormed
    (fun name d hd => (Document.durable_iff.1 (hdurable name d hd)).1) durability
  have hreadable : ∀ name, s.Readable name := fun name d hd =>
    (Document.durable_iff.1 (hdurable name d hd)).2
  have hthere := fun name hw => (hcollections name).1 hw (hreadable name)
  have hgone := fun name (hw : ¬ written name) => (hcollections name).2 fun h => hw h.1
  have hdocuments : ∀ name, (s'.view name).documents = (s.view name).documents := by
    intro name
    by_cases hw : written name
    · rw [view, hthere name hw]
      rfl
    · rw [view, hgone name hw, hstep.blank name hw]
      rfl
  obtain ⟨harchive, hopened⟩ := archive_of_ofArchive hopen
  refine ⟨a, s', hstep.durable, hmade, hopen, harchive,
    ⟨⟨_, written, hstep.of_revisions durability harchive hthere hgone⟩,
      wellFormed_of_ofArchive hopen, fun name d hd => ?_, hopened⟩, hdocuments⟩
  rw [hdocuments] at hd
  exact h.kept name d hd

end Store

end StepLedger

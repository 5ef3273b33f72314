import StepLedger.Proofs.Archive.Names
import StepLedger.Proofs.Disk
import StepLedger.Store

/-!
# Where an archive keeps collections

The file of a collection stands in the directory of the archive under the name of the collection with
`.json` behind it (`Archive.place_file`), so that the files of two collections are apart. To save a
collection puts its snapshot there or changes nothing at all (`Archive.save_cases`), and to delete one
takes the file away (`Archive.delete_cases`).
-/

namespace StepLedger

open FileSystem

/-! ## Names of collections -/

namespace Store

variable {name : String}

theorem toList_ne_nil_of_isName (h : isName name = true) : name.toList ≠ [] := by
  intro hnil
  rw [isName, Bool.and_eq_true] at h
  rw [String.toList_eq_nil_iff.1 hnil] at h
  exact absurd h.1 (by decide)

/-- A character that no collection may have in its name is not in it. -/
theorem notMem_of_isName (h : isName name = true) {c : Char} (hc : isNameChar c = false) :
    c ∉ name.toList := by
  intro hmem
  rw [isName, Bool.and_eq_true] at h
  rw [List.all_eq_true.1 h.2 c hmem] at hc
  cases hc

theorem not_isBlank_of_isNameChar {c : Char} (h : isNameChar c = true) : Text.isBlank c = false := by
  have hrange : (48 ≤ c.toNat ∧ c.toNat ≤ 57) ∨ (65 ≤ c.toNat ∧ c.toNat ≤ 90) ∨
      (97 ≤ c.toNat ∧ c.toNat ≤ 122) ∨ c = '_' ∨ c = '-' := by
    have hletter : c.isAlphanum = (decide (c.val ≥ 65 ∧ c.val ≤ 90) ||
        (decide (c.val ≥ 97) && decide (c.val ≤ 122)) ||
        (decide (c.val ≥ 48) && decide (c.val ≤ 57))) := rfl
    simp only [isNameChar, hletter, Bool.or_eq_true, Bool.and_eq_true, decide_eq_true_eq,
      UInt32.le_iff_toNat_le, ge_iff_le] at h
    simp only [Char.toNat]
    grind
  simp only [Text.isBlank]
  rcases hrange with h | h | h | rfl | rfl
  · simp
    omega
  · simp
    omega
  · simp
    omega
  · rfl
  · rfl

/-- A collection has no name of nothing but white space. -/
theorem not_allBlank_of_isName (h : isName name = true) : Text.allBlank name = false := by
  obtain ⟨c, rest, htext⟩ := List.exists_cons_of_ne_nil (toList_ne_nil_of_isName h)
  rw [isName, Bool.and_eq_true, htext, List.all_cons, Bool.and_eq_true] at h
  rw [Text.allBlank, htext, List.all_cons, not_isBlank_of_isNameChar h.2.1, Bool.false_and]

end Store

namespace Archive

open Store (isName)

variable {a : Archive} {name other : String}

/-- The system follows the path of the file of a collection if something stands there. -/
def Admits (a : Archive) (collection : String) : Prop :=
  pathFault? (a.file collection) = none ∧ nameFault? (fileName collection) = none

theorem inside_of_isName (h : isName name = true) : Inside name ∧ stem name = name := by
  have hdot := Store.notMem_of_isName h (c := '.') rfl
  have hstem := stem_of_notMem hdot
  refine ⟨⟨Store.notMem_of_isName h rfl, ?_, ?_⟩, hstem⟩
  · rintro rfl
    exact Store.toList_ne_nil_of_isName h rfl
  · rw [hstem]
    rintro rfl
    exact hdot (by decide)

theorem file_of_isName (h : isName name = true) : a.file name = a.slot name := by
  obtain ⟨hinside, hstem⟩ := inside_of_isName h
  rw [file_of_inside hinside, hstem]

/-- What ends with an empty part leads where it leads without. -/
theorem walk_trunk {fs : FileSystem} {start result : Place}
    (h : fs.walk start a.directory.parts = .ok result) : fs.walk start a.trunk = .ok result := by
  rw [trunk]
  split
  · next hlast =>
    obtain ⟨before, hparts⟩ := List.getLast?_eq_some_iff.1 hlast
    rw [hparts] at h ⊢
    obtain ⟨between, hfirst, hrest⟩ := walk_append_eq_ok.1 h
    obtain ⟨-, -, -, hend⟩ := walk_cons_eq_ok.1 hrest
    cases hend
    rwa [List.dropLast_concat]
  · exact h

theorem place_file (h : isName name = true) : (a.file name).place = a.place name := by
  rw [file_of_isName h, place_slot]

/-- What the system finds under a stem stands at the place for it, if it follows the path at all. -/
theorem find?_slot {fs : FileSystem} (hdirectory : fs.find? a.directory = some .directory)
    (stem : String) : fs.find? (a.slot stem) =
      if pathFault? (a.slot stem) = none ∧ nameFault? (fileName stem) = none
      then fs.node? (a.place stem) else none := by
  obtain ⟨-, hwalk, hnode⟩ := find?_eq_directory_iff.1 hdirectory
  have htrunk : fs.walk (a.slot stem).start a.trunk = .ok a.directory.place := walk_trunk hwalk
  rw [find?, resolve]
  cases hpath : pathFault? (a.slot stem) with
  | some fault => simp
  | none =>
    dsimp only
    rw [show (a.slot stem).parts = a.trunk ++ [fileName stem] from rfl, walk_append htrunk, walk,
      directoryFault?_eq_none_iff.2 hnode, enter_fileName, ← place]
    cases nameFault? (fileName stem) with
    | some fault => simp
    | none => cases hstands : fs.node? (a.place stem) <;> simp [walk, hstands]

/-- The file of a collection is found where it stands. -/
theorem find?_file {fs : FileSystem} (hdirectory : fs.find? a.directory = some .directory)
    (h : isName name = true) (hadmits : a.Admits name) :
    fs.find? (a.file name) = fs.node? (a.place name) := by
  rw [Admits, file_of_isName h] at hadmits
  rw [file_of_isName h, find?_slot hdirectory, if_pos hadmits]

/-- A file can only be put where its path leads. -/
theorem target_slot {fs : FileSystem} {stem : String} {goal : Place}
    (h : fs.target (a.slot stem) = .ok goal) : goal = a.place stem ∧
      (pathFault? (a.slot stem) = none ∧ nameFault? (fileName stem) = none) ∧
      fs.isDirectory goal = false := by
  obtain rfl := (eq_place_of_target h).trans (place_slot a stem)
  obtain ⟨between, last, hof, -, -, hfree⟩ := target_eq_ok.1 h
  obtain ⟨hpath, -, hlast, -, hlong⟩ := directoryOf_eq_ok.1 hof
  rw [slot, List.getLast?_concat, Option.getD_some] at hlast
  subst hlast
  exact ⟨rfl, ⟨hpath, hlong⟩, hfree⟩

/-- A file that the system follows the path of is put there, unless a directory is in its place. -/
theorem target_file {fs : FileSystem} (hdirectory : fs.find? a.directory = some .directory)
    (h : isName name = true) (hadmits : a.Admits name)
    (hfree : fs.isDirectory (a.place name) = false) : fs.target (a.file name) = .ok (a.place name) := by
  obtain ⟨-, hwalk, hnode⟩ := find?_eq_directory_iff.1 hdirectory
  obtain ⟨hpath, hlong⟩ := hadmits
  rw [file_of_isName h] at hpath ⊢
  have hslot : (a.slot name).parts.dropLast = a.trunk ∧
      (a.slot name).parts.getLast?.getD "" = fileName name := by
    rw [slot, List.dropLast_concat, List.getLast?_concat]
    exact ⟨rfl, rfl⟩
  refine target_eq_ok.2 ⟨a.directory.place, fileName name, directoryOf_eq_ok.2 ⟨hpath, ?_, ?_, hnode,
    hlong⟩, ?_, rfl, hfree⟩
  · rw [hslot.1]
    exact walk_trunk hwalk
  · exact hslot.2.symm
  · exact not_isIdle_fileName name

/-- The archive with other files. -/
def withFiles (a : Archive) (files : FileSystem) : Archive :=
  { a with disk := { a.disk with files } }

/-! ## Saving -/

/-- The archive with the snapshot of a collection in its file. -/
def keeping (a : Archive) (c : Collection) : Archive :=
  { a with disk := { a.disk with
      files := a.disk.files.put (a.place c.name)
        (.file (Snapshot.ofCollection a.disk.now c).text) } }

/-- The file of a collection can be written. -/
structure Ready (a : Archive) (collection : String) : Prop where
  directory : a.disk.files.find? a.directory = some .directory
  admits : a.Admits collection
  free : a.disk.files.isDirectory (a.place collection) = false

/-- A collection is saved in the file of its name, or nothing changes. -/
theorem save_path_cases (a : Archive) (c : Collection) :
    (∃ e, e.IsOutage ∧ a.save c = (.error e, a)) ∨
      a.save c = (.ok (), a.withFiles (a.disk.files.put (a.file c.name).place
          (.file (Snapshot.ofCollection a.disk.now c).text))) ∧
        a.disk.files.find? a.directory = some .directory ∧
        a.disk.files.target (a.file c.name) = .ok (a.file c.name).place := by
  rw [save]
  obtain ⟨e, houtage, h⟩ | ⟨goal, hdirectory, hgoal, h⟩ := Disk.replace_cases a.disk a.directory
    (a.file c.name) (a.durability = .sync) (Snapshot.ofCollection a.disk.now c).text
  · rw [h]
    exact .inl ⟨e, houtage, rfl⟩
  · obtain rfl := eq_place_of_target hgoal
    rw [h]
    exact .inr ⟨rfl, hdirectory, hgoal⟩

/-- A collection is saved in its file, or nothing changes. -/
theorem save_cases (a : Archive) {c : Collection} (hname : isName c.name = true) :
    (∃ e, e.IsOutage ∧ a.save c = (.error e, a)) ∨
      a.save c = (.ok (), a.keeping c) ∧ a.Ready c.name := by
  refine (a.save_path_cases c).imp_right fun ⟨hsave, hdirectory, htarget⟩ => ?_
  rw [file_of_isName hname] at hsave htarget
  obtain ⟨-, hadmits, hfree⟩ := target_slot htarget
  rw [← file_of_isName hname] at hadmits
  rw [place_slot] at hsave hfree
  exact ⟨hsave, hdirectory, hadmits, hfree⟩

theorem isOutage_of_save {a' : Archive} {c : Collection} {e : StoreError}
    (h : a.save c = (.error e, a')) : e.IsOutage := by
  obtain ⟨e', houtage, hsave⟩ | ⟨hsave, -⟩ := a.save_path_cases c
  · cases hsave.symm.trans h
    exact houtage
  · cases hsave.symm.trans h

/-- Where the file can be written and the disk refuses nothing, a collection is saved. -/
theorem save_of_ready {c : Collection} (hname : isName c.name = true) (h : a.Ready c.name)
    (hrefused : a.disk.refused = none) : a.save c = (.ok (), a.keeping c) := by
  rw [save, Disk.replace_of_unrefused hrefused h.directory
    (target_file h.directory hname h.admits h.free)]
  rfl

section

variable {c : Collection}

theorem node?_keeping_self : (a.keeping c).disk.files.node? (a.place c.name) =
    some (.file (Snapshot.ofCollection a.disk.now c).text) := by
  rw [keeping, node?_put_self (place_ne_root a c.name)]

theorem node?_keeping_ne {place : Place} (h : place ≠ a.place c.name) :
    (a.keeping c).disk.files.node? place = a.disk.files.node? place := node?_put_ne h _

theorem Ready.find?_directory (h : a.Ready c.name) :
    (a.keeping c).disk.files.find? a.directory = some .directory :=
  find?_mono (fun _ hplace => isDirectory_put h.free _ hplace) h.directory

/-- What was saved is in the file. -/
theorem Ready.find?_keeping (h : a.Ready c.name) (hname : isName c.name = true) :
    (a.keeping c).disk.files.find? (a.file c.name) =
      some (.file (Snapshot.ofCollection a.disk.now c).text) := by
  rw [find?_file h.find?_directory hname h.admits, node?_keeping_self]

/-- What could be written before a file was written can be written after it. -/
theorem Ready.keeping (h : a.Ready c.name) (hother : a.Ready other) : (a.keeping c).Ready other where
  directory := h.find?_directory
  admits := hother.admits
  free := by
    show (a.keeping c).disk.files.isDirectory (a.place other) = false
    rw [isDirectory]
    by_cases hplace : a.place other = a.place c.name
    · rw [hplace, node?_keeping_self]
      rfl
    · rw [node?_keeping_ne hplace]
      exact hother.free

end

/-! ## Deleting -/

/-- The archive without the file of a collection. -/
def without (a : Archive) (collection : String) : Archive :=
  { a with disk := { a.disk with files := a.disk.files.remove (a.place collection) } }

theorem find?_directory_without (hdirectory : a.disk.files.find? a.directory = some .directory)
    (hfile : a.disk.files.isDirectory (a.place name) = false) :
    (a.without name).disk.files.find? a.directory = some .directory :=
  find?_mono (fun _ hplace => isDirectory_remove hfile hplace) hdirectory

/-- There is no file under a name, or it is taken away, or nothing changes. -/
theorem delete_path_cases (a : Archive) (name : String) :
    a.disk.files.find? (a.file name) = none ∧ a.delete name = (.ok (), a) ∨
      a.delete name = (.ok (), a.withFiles (a.disk.files.remove (a.file name).place)) ∧
        a.disk.files.isDirectory (a.file name).place = false ∨
      ∃ outage, a.delete name = (.error (.storeUnavailable outage), a) := by
  unfold delete
  split
  · next hnone => exact .inl ⟨hnone, rfl⟩
  · split
    · next disk hdelete =>
      obtain ⟨_, -, h⟩ := Except.bind_eq_ok.1 hdelete
      obtain ⟨goal, hgoal, h⟩ := Except.bind_eq_ok.1 h
      obtain rfl := eq_place_of_resolve hgoal
      split at h
      · cases h
      · next hdirectory =>
        cases h
        exact .inr (.inl ⟨rfl, Bool.not_eq_true _ ▸ hdirectory⟩)
    · next fault _ => exact .inr (.inr ⟨.delete fault, rfl⟩)

/-- There is no file of the collection, or it is taken away, or nothing changes. -/
theorem delete_cases (a : Archive) (hname : isName name = true) :
    a.disk.files.find? (a.file name) = none ∧ a.delete name = (.ok (), a) ∨
      a.delete name = (.ok (), a.without name) ∧
        a.disk.files.isDirectory (a.place name) = false ∨
      ∃ outage, a.delete name = (.error (.storeUnavailable outage), a) := by
  have hcases := a.delete_path_cases name
  rwa [place_file hname] at hcases

/-! ## Loading -/

/-- All collections are loaded from the files in the directory, if there is one. -/
theorem loadAll_eq_ok {cs : List Collection} : a.loadAll = .ok cs ↔
    a.disk.files.find? a.directory = some .directory ∧
      a.loadFiles (a.disk.files.children a.directory.place) = .ok cs := by
  rw [loadAll, find?]
  cases hresolve : a.disk.files.resolve a.directory with
  | error fault => simp
  | ok result =>
    obtain rfl := eq_place_of_resolve hresolve
    have hnode : a.disk.files.node? a.directory.place = some .directory ↔
        a.disk.files.directoryFault? a.directory.place = none := by
      rw [directoryFault?_eq_none_iff, isDirectory, decide_eq_true_iff]
    dsimp only
    rw [hnode]
    cases a.disk.files.directoryFault? a.directory.place <;> simp

theorem genuine?_directory (file : String) : genuine? file .directory = none := by
  rw [genuine?, read]
  split
  · next h => cases h
  · rfl

/-- Nothing is loaded where there are only directories. -/
theorem loadFiles_directories {files : List (String × Node)}
    (h : ∀ entry ∈ files, entry.2 = .directory) : a.loadFiles files = .ok [] := by
  induction files with
  | nil => rfl
  | cons entry files ih =>
    obtain ⟨file, node⟩ := entry
    obtain rfl : node = .directory := h _ List.mem_cons_self
    rw [loadFiles, genuine?_directory]
    exact ih fun entry hentry => h entry (List.mem_cons_of_mem _ hentry)

theorem snd_ofDirectory (disk : Disk) (directory : String) (durability : Durability) :
    (ofDirectory disk directory durability).2 =
      { disk with files := (disk.files.createDirectories (Path.ofText directory)).2 } := by
  rw [ofDirectory]
  dsimp only
  split <;> next hmade => rw [hmade]

theorem ofDirectory_eq_ok {disk disk' : Disk} {directory : String} {durability : Durability}
    (h : ofDirectory disk directory durability = (.ok a, disk')) :
    a = ⟨disk', Path.ofText directory, durability⟩ ∧
      disk' = { disk with files := (disk.files.createDirectories (Path.ofText directory)).2 } := by
  rw [ofDirectory] at h
  dsimp only at h
  split at h
  · next files hmade =>
    cases h
    rw [hmade]
    exact ⟨rfl, rfl⟩
  · cases h

end Archive

end StepLedger

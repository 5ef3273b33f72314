import StepLedger.Proofs.Archive.Loading
import StepLedger.Proofs.Collection.FirstMatch
import StepLedger.Proofs.Document.Values
import StepLedger.Proofs.Store.Failure

/-!
# What an archive holds

An archive that begins in an empty directory is filled and emptied by saving and deleting, while the
time goes on and the disk refuses now one operation and now another (`Archive.Run`). What it holds
goes by the stem of a name: two names with the same stem have the same file, and what is saved under
the one takes the place of what was saved under the other. Apart from that an archive is a map
(`Archive.Run.loads_by_stem`). With all collections come those that are called after their file
only, which are the ones whose name has no extension.
-/

namespace StepLedger.Archive

open FileSystem

variable {a a' a₀ : Archive} {c : Collection} {name key : String} {fs fs' : FileSystem}

/-! ## Runs -/

/-- What an archive holds, by the stem of the name under which it was saved. -/
abbrev Contents := String → Option Collection

/-- The contents after a collection was saved under a name, or deleted. A name that leads to no file
in the directory makes no difference. -/
def Contents.set (held : Contents) (name : String) (c : Option Collection) : Contents := fun key =>
  if Inside name ∧ key = stem name then c else held key

variable {held : Contents}

theorem Contents.set_self (h : Inside name) (c : Option Collection) :
    held.set name c (stem name) = c := if_pos ⟨h, rfl⟩

theorem Contents.set_ne (h : key ≠ stem name) (c : Option Collection) :
    held.set name c key = held key := if_neg fun hset => h hset.2

theorem Contents.set_of_not_inside (h : ¬ Inside name) (c : Option Collection) :
    held.set name c = held := funext fun _ => if_neg fun hset => h hset.1

/-- The archive with its disk in some condition. -/
def under (a : Archive) (condition : Disk.Condition) : Archive :=
  { a with disk := ⟨a.disk.files, condition.now, condition.refused⟩ }

/-- The archives that saving and deleting with success lead to, each with what it holds. Every
operation finds the disk in a condition of its own. -/
inductive Run (a₀ : Archive) : Archive → Contents → Prop
  | start : Run a₀ a₀ fun _ => none
  | save {a a' : Archive} {held : Contents} {c : Collection} (condition : Disk.Condition)
      (h : Run a₀ a held) (hc : c.Reachable) (hdurable : ∀ d ∈ c.documents, d.Durable)
      (hname : '/' ∉ c.name.toList) (hsave : (a.under condition).save c = (.ok (), a')) :
      Run a₀ a' (held.set c.name (some c))
  | delete {a a' : Archive} {held : Contents} {name : String} (condition : Disk.Condition)
      (h : Run a₀ a held) (hname : '/' ∉ name.toList)
      (hdelete : (a.under condition).delete name = (.ok (), a')) :
      Run a₀ a' (held.set name none)

/-! ## What the files hold -/

/-- The directory has a file for each collection that is held, and nothing else. -/
structure Holds (a : Archive) (held : Contents) : Prop where
  found : a.disk.files.find? a.directory = some .directory
  /-- A collection is held under the stem of its name, and can be read back. -/
  restorable : ∀ {key c}, held key = some c → (Inside c.name ∧ stem c.name = key) ∧ c.WellFormed ∧
    ∀ d ∈ c.documents, d.Durable
  filed : ∀ key, ∃ now, a.disk.files.find? (a.slot key) =
    (held key).map fun c => .file (Snapshot.ofCollection now c).text
  only : ∀ {file node}, (file, node) ∈ a.disk.files.children a.directory.place →
    ∃ key c now, file = fileName key ∧ held key = some c ∧
      node = .file (Snapshot.ofCollection now c).text
  distinct : ((a.disk.files.children a.directory.place).map Prod.fst).Nodup

theorem Holds.under (h : Holds a held) (condition : Disk.Condition) :
    Holds (a.under condition) held := ⟨h.found, h.restorable, h.filed, h.only, h.distinct⟩

/-- What is found under a stem depends on what stands at its place only. -/
theorem find?_slot_congr (hfound : fs.find? a.directory = some .directory)
    (hfound' : fs'.find? a.directory = some .directory)
    (h : fs'.node? (a.place key) = fs.node? (a.place key)) :
    fs'.find? (a.slot key) = fs.find? (a.slot key) := by
  rw [find?_slot hfound, find?_slot hfound', h]

/-- An archive without files holds nothing. -/
theorem holds_of_children (hfound : a.disk.files.find? a.directory = some .directory)
    (hempty : a.disk.files.children a.directory.place = []) : Holds a fun _ => none where
  found := hfound
  restorable := nofun
  filed := fun key => by
    have hnone : a.disk.files.node? (a.place key) = none := by
      rw [Option.eq_none_iff_forall_ne_some]
      intro node hnode
      rw [node?, if_neg (place_ne_root a key)] at hnode
      have hmem := mem_children.2 (mem_of_lookup hnode)
      rw [hempty] at hmem
      cases hmem
    refine ⟨a.disk.now, ?_⟩
    rw [find?_slot hfound, hnone, ite_self]
    rfl
  only := fun hmem => by
    rw [hempty] at hmem
    cases hmem
  distinct := by
    rw [hempty]
    exact List.nodup_nil

/-- What happens outside of the directory changes nothing. -/
theorem Holds.beside (h : Holds a held) (hfound : fs.find? a.directory = some .directory)
    (hnode : ∀ key, fs.node? (a.place key) = a.disk.files.node? (a.place key))
    (hchildren : fs.children a.directory.place = a.disk.files.children a.directory.place) :
    Holds (a.withFiles fs) held where
  found := hfound
  restorable := h.restorable
  filed := fun key =>
    (h.filed key).imp fun _ hfile => (find?_slot_congr h.found hfound (hnode key)).trans hfile
  only := fun hmem => h.only (hchildren ▸ hmem)
  distinct := by
    rw [show (a.withFiles fs).disk.files.children (a.withFiles fs).directory.place = _ from hchildren]
    exact h.distinct

/-- What happens at the place of one stem changes what is held under that. -/
theorem Holds.within (h : Holds a held) (hname : Inside name) {value : Option Collection}
    (hfound : fs.find? a.directory = some .directory)
    (hnode : ∀ place, place ≠ a.place (stem name) → fs.node? place = a.disk.files.node? place)
    (hrestorable : ∀ c, value = some c → (Inside c.name ∧ stem c.name = stem name) ∧ c.WellFormed ∧
      ∀ d ∈ c.documents, d.Durable)
    (hfiled : ∃ now, fs.find? (a.slot (stem name)) =
      value.map fun c => .file (Snapshot.ofCollection now c).text)
    (honly : ∀ {file node}, (file, node) ∈ fs.children a.directory.place →
      (file = fileName (stem name) ∧ ∃ c now, value = some c ∧
        node = .file (Snapshot.ofCollection now c).text) ∨
      (file, node) ∈ a.disk.files.children a.directory.place ∧ file ≠ fileName (stem name))
    (hdistinct : ((fs.children a.directory.place).map Prod.fst).Nodup) :
    Holds (a.withFiles fs) (held.set name value) where
  found := hfound
  restorable := fun {key c} hset => by
    by_cases hkey : key = stem name
    · subst hkey
      exact hrestorable c ((Contents.set_self hname value).symm.trans hset)
    · exact h.restorable ((Contents.set_ne hkey value).symm.trans hset)
  filed := fun key => by
    by_cases hkey : key = stem name
    · subst hkey
      rw [Contents.set_self hname]
      exact hfiled
    · rw [Contents.set_ne hkey]
      have hsame := find?_slot_congr h.found hfound (hnode _ (mt place_inj.1 hkey))
      exact (h.filed key).imp fun _ hfile => hsame.trans hfile
  only := fun hmem => by
    obtain ⟨rfl, c, now, hvalue, hfile⟩ | ⟨hold, hne⟩ := honly hmem
    · exact ⟨stem name, c, now, rfl, (Contents.set_self hname value).trans hvalue, hfile⟩
    · obtain ⟨key, c, now, rfl, hheld, hfile⟩ := h.only hold
      have hkey : key ≠ stem name := mt fileName_inj.2 hne
      exact ⟨key, c, now, rfl, (Contents.set_ne hkey value).trans hheld, hfile⟩
  distinct := hdistinct

/-- To put the snapshot of a collection into the file of its stem is to save the collection. -/
theorem Holds.filing (h : Holds a held) (hname : Inside c.name) (hc : c.WellFormed)
    (hdurable : ∀ d ∈ c.documents, d.Durable)
    (hadmits : pathFault? (a.slot (stem c.name)) = none ∧ nameFault? (fileName (stem c.name)) = none)
    (hfree : a.disk.files.isDirectory (a.place (stem c.name)) = false) (now : Calendar.Instant) :
    Holds (a.withFiles (a.disk.files.put (a.place (stem c.name))
      (.file (Snapshot.ofCollection now c).text))) (held.set c.name (some c)) := by
  have hfound := find?_mono
    (fun _ => isDirectory_put hfree (.file (Snapshot.ofCollection now c).text)) h.found
  refine h.within hname hfound (fun _ hne => node?_put_ne hne _) ?_ ⟨now, ?_⟩ ?_
    (nodup_children_put h.distinct _)
  · intro c' hc'
    cases hc'
    exact ⟨⟨hname, rfl⟩, hc, hdurable⟩
  · rw [find?_slot hfound, if_pos hadmits, node?_put_self (place_ne_root a _)]
    rfl
  · intro file node hmem
    exact (mem_children_put.1 hmem).imp_left fun ⟨hfile, hnode⟩ => ⟨hfile, c, now, rfl, hnode⟩

/-- To take the file of a stem away is to delete what is held under it. -/
theorem Holds.removing (h : Holds a held) (hname : Inside name)
    (hfree : a.disk.files.isDirectory (a.place (stem name)) = false) :
    Holds (a.withFiles (a.disk.files.remove (a.place (stem name)))) (held.set name none) := by
  have hfound := find?_mono (fun _ => isDirectory_remove hfree) h.found
  refine h.within hname hfound (fun _ hne => node?_remove_ne hne) nofun ⟨a.disk.now, ?_⟩
    (fun hmem => .inr (mem_children_remove.1 hmem))
    (h.distinct.sublist ((children_remove_sublist _).map _))
  rw [find?_slot hfound, node?_remove_self (place_ne_root a _), ite_self]
  rfl

/-! ## Saving and deleting -/

/-- The file of a name that leads to none in the directory is elsewhere. -/
theorem place_ne_of_not_inside (hslash : '/' ∉ name.toList) (h : ¬ Inside name) (file : String) :
    (a.file name).place ≠ a.directory.place ++ [file] := by
  intro heq
  have hle := length_place_le (a := a) hslash h
  rw [heq, List.length_append, List.length_singleton] at hle
  omega

theorem Holds.save (h : Holds a held) (hc : c.WellFormed) (hdurable : ∀ d ∈ c.documents, d.Durable)
    (hname : '/' ∉ c.name.toList) (hsave : a.save c = (.ok (), a')) :
    Holds a' (held.set c.name (some c)) := by
  obtain ⟨e, -, heq⟩ | ⟨heq, -, htarget⟩ := a.save_path_cases c
  · cases heq.symm.trans hsave
  cases heq.symm.trans hsave
  by_cases hinside : Inside c.name
  · rw [file_of_inside hinside] at htarget ⊢
    obtain ⟨-, hadmits, hfree⟩ := target_slot htarget
    rw [place_slot] at hfree ⊢
    exact h.filing hinside hc hdurable hadmits hfree _
  · have hne := place_ne_of_not_inside (a := a) hname hinside
    obtain ⟨-, -, -, -, -, hfree⟩ := target_eq_ok.1 htarget
    rw [Contents.set_of_not_inside hinside]
    exact h.beside (find?_mono (fun _ => isDirectory_put hfree _) h.found)
      (fun key => node?_put_ne (hne _).symm _) (children_put_ne hne _)

theorem Holds.delete (h : Holds a held) (hname : '/' ∉ name.toList)
    (hdelete : a.delete name = (.ok (), a')) : Holds a' (held.set name none) := by
  obtain ⟨hmissing, heq⟩ | ⟨heq, hfree⟩ | ⟨outage, heq⟩ := a.delete_path_cases name
  · cases heq.symm.trans hdelete
    by_cases hinside : Inside name
    · obtain ⟨now, hfile⟩ := h.filed (stem name)
      rw [← file_of_inside hinside, hmissing] at hfile
      have hnone : held (stem name) = none := Option.map_eq_none_iff.1 hfile.symm
      have hset : held.set name none = held := funext fun key => by
        by_cases hkey : key = stem name
        · rw [hkey, Contents.set_self hinside, hnone]
        · exact Contents.set_ne hkey none
      rwa [hset]
    · rwa [Contents.set_of_not_inside hinside]
  · cases heq.symm.trans hdelete
    by_cases hinside : Inside name
    · rw [file_of_inside hinside, place_slot] at hfree ⊢
      exact h.removing hinside hfree
    · have hne := place_ne_of_not_inside (a := a) hname hinside
      rw [Contents.set_of_not_inside hinside]
      exact h.beside (find?_mono (fun _ => isDirectory_remove hfree) h.found)
        (fun key => node?_remove_ne (hne _).symm) (children_remove_ne hne)
  · cases heq.symm.trans hdelete

/-- All along a run the files are those of what is held. -/
theorem Run.holds (h : Run a₀ a held) (hfound : a₀.disk.files.find? a₀.directory = some .directory)
    (hempty : a₀.disk.files.children a₀.directory.place = []) : Holds a held := by
  induction h with
  | start => exact holds_of_children hfound hempty
  | save condition _ hc hdurable hname hsave ih =>
    exact (ih.under condition).save hc.wellFormed hdurable hname hsave
  | delete condition _ hname hdelete ih => exact (ih.under condition).delete hname hdelete

/-! ## Loading -/

theorem Holds.load (h : Holds a held) (hname : Inside name) :
    a.load name = .ok ((held (stem name)).map fun c => { c with revision := 0 }) := by
  obtain ⟨now, hfile⟩ := h.filed (stem name)
  rw [← file_of_inside hname] at hfile
  unfold Archive.load
  rw [hfile]
  cases hheld : held (stem name) with
  | none => rfl
  | some c =>
    obtain ⟨-, hc, hdurable⟩ := h.restorable hheld
    have hread : Snapshot.ofText? (Snapshot.ofCollection now c).text = _ :=
      Snapshot.ofText?_ofCollection hdurable
    rw [Option.map_some]
    dsimp only
    rw [read, hread]
    dsimp only
    rw [Except.mapError_ok, Except.ok_bind, restore_snapshot hc]
    rfl

/-- With all collections come those that are held under their own name. -/
theorem Holds.loadAll (h : Holds a held) : ∃ cs, a.loadAll = .ok cs ∧
    (cs.map Collection.name).Nodup ∧
    ∀ c, c ∈ cs ↔ ∃ c', held c'.name = some c' ∧ c = { c' with revision := 0 } := by
  have hrestorable : ∀ {key c}, held key = some c → key ≠ "" ∧ c.WellFormed ∧
      ∀ d ∈ c.documents, d.Durable := by
    intro key c hheld
    obtain ⟨⟨hinside, rfl⟩, hc, hdurable⟩ := h.restorable hheld
    exact ⟨stem_ne_empty hinside, hc, hdurable⟩
  have hwhole : ∀ {key c}, held key = some c → ∀ d ∈ c.documents, d.Whole := fun hheld d hd =>
    (Document.durable_iff.1 ((hrestorable hheld).2.2 d hd)).1
  have hgenuine : ∀ file node s, (file, node) ∈ a.disk.files.children a.directory.place →
      genuine? file node = some s → ∃ c, ∀ shown, restore shown s = .ok c := by
    intro file node s hmem hs
    obtain ⟨key, c, now, rfl, hheld, rfl⟩ := h.only hmem
    obtain ⟨hkey, hc, -⟩ := hrestorable hheld
    obtain ⟨-, -, rfl⟩ := (genuine?_eq_some_iff hkey (hwhole hheld)).1 hs
    exact ⟨_, fun shown => restore_snapshot hc⟩
  refine ⟨_, loadAll_eq_ok.2 ⟨h.found, loadFiles_eq hgenuine⟩, nodup_restored h.distinct, fun c => ?_⟩
  rw [List.mem_filterMap]
  constructor
  · rintro ⟨⟨file, node⟩, hmem, hrestored⟩
    obtain ⟨key, c', now, rfl, hheld, rfl⟩ := h.only hmem
    obtain ⟨hkey, hc, -⟩ := hrestorable hheld
    obtain ⟨rfl, -, rfl⟩ := (restored?_eq_some_iff hkey hc (hwhole hheld)).1 hrestored
    exact ⟨c', hheld, rfl⟩
  · rintro ⟨c', hheld, rfl⟩
    obtain ⟨hkey, hc, hdurable⟩ := hrestorable hheld
    obtain ⟨now, hfile⟩ := h.filed c'.name
    rw [hheld, find?_slot h.found, Option.map_some, Option.ite_none_right_eq_some] at hfile
    refine ⟨_, mem_children.2 (mem_nodes_of_node? hfile.2), ?_⟩
    exact (restored?_eq_some_iff hkey hc (hwhole hheld)).2
      ⟨rfl, fun d hd => (Document.durable_iff.1 (hdurable d hd)).2, rfl⟩

/-! ## The archive as a map -/

/-- A name that leads to a file in the directory loads the collection that was last saved under a name
with the same stem, with its documents in order, and nothing if none was saved or one was deleted
since. Two names have the same file if and only if they have the same stem. With all collections come
those that are held under the stem which is their name, each once. -/
theorem Run.loads_by_stem (h : Run a₀ a held)
    (hfound : a₀.disk.files.find? a₀.directory = some .directory)
    (hempty : a₀.disk.files.children a₀.directory.place = []) :
    (∀ name, Inside name →
      a.load name = .ok ((held (stem name)).map fun c => { c with revision := 0 })) ∧
    (∀ name other, Inside name → Inside other →
      (a.file name = a.file other ↔ stem name = stem other)) ∧
    ∃ cs, a.loadAll = .ok cs ∧ (cs.map Collection.name).Nodup ∧
      ∀ c, c ∈ cs ↔ ∃ c', held c'.name = some c' ∧ c = { c' with revision := 0 } := by
  have hholds := h.holds hfound hempty
  refine ⟨fun name hname => hholds.load hname, fun name other hname hother => ?_, hholds.loadAll⟩
  rw [file_of_inside hname, file_of_inside hother, slot_inj]

/-- A collection with one page. -/
def pages (name : String) : Collection := ⟨name, [.page], ["7"], 1⟩

theorem reachable_pages (name : String) : (pages name).Reachable :=
  .insert (.empty name) (show (Collection.empty name).insert .page = .ok (pages name) from rfl)

theorem durable_pages (name : String) : ∀ d ∈ (pages name).documents, d.Durable := by
  intro d hd
  rw [List.mem_singleton.1 hd]
  exact Document.all_ofList fun field hfield => by
    rw [List.mem_singleton.1 hfield]
    exact ⟨trivial, trivial⟩

/-- A collection that was saved is loaded again, and others are not there. -/
theorem loads_by_stem_of_pages : ∃ a held,
    (drawer none).disk.files.find? (drawer none).directory = some .directory ∧
    (drawer none).disk.files.children (drawer none).directory.place = [] ∧
    Run (drawer none) a held ∧ a.load "pages" = .ok (some { pages "pages" with revision := 0 }) ∧
    a.load "ledger" = .ok none := by
  have hstart : Run (drawer none) (drawer none) _ := .start
  have hsaved := hstart.save ⟨(drawer none).disk.now, none⟩ (reachable_pages "pages")
    (durable_pages "pages") (by decide) (Prod.ext rfl rfl)
  obtain ⟨hload, -, -⟩ := hsaved.loads_by_stem rfl rfl
  exact ⟨_, _, rfl, rfl, hsaved, hload "pages" (by decide), hload "ledger" (by decide)⟩

/-- A name with an extension takes the file of the name without it, and the collection that is saved
under it is none of all collections. -/
theorem extension_is_replaced : ∃ a a',
    (drawer none).save (pages "pages") = (.ok (), a) ∧
    a.load "pages" = .ok (some { pages "pages" with revision := 0 }) ∧
    a.save (pages "pages.old") = (.ok (), a') ∧
    a'.load "pages" = .ok (some { pages "pages.old" with revision := 0 }) ∧
    a'.loadAll = .ok [] := by
  obtain ⟨a, a', hsave, hsave'⟩ : ∃ a a', (drawer none).save (pages "pages") = (.ok (), a) ∧
      a.save (pages "pages.old") = (.ok (), a') := ⟨_, _, Prod.ext rfl rfl, Prod.ext rfl rfl⟩
  have hwf : ∀ name, (pages name).WellFormed := fun name => (reachable_pages name).wellFormed
  have hstart : Holds (drawer none) fun _ => none := holds_of_children rfl rfl
  have hfirst := hstart.save (hwf "pages") (durable_pages "pages") (by decide) hsave
  have hsecond := hfirst.save (hwf "pages.old") (durable_pages "pages.old") (by decide) hsave'
  obtain ⟨cs, hall, -, hmem⟩ := hsecond.loadAll
  have hstems : stem "pages" = "pages" ∧ stem "pages.old" = "pages" := by decide
  have hnone : cs = [] := by
    rw [List.eq_nil_iff_forall_not_mem]
    intro c hc
    obtain ⟨c', hheld, -⟩ := (hmem c).1 hc
    by_cases hname : c'.name = "pages"
    · rw [hname] at hheld
      cases hheld
      exact absurd hname (by decide)
    · have hother : ∀ name, stem name = "pages" → c'.name ≠ stem (pages name).name :=
        fun name hstem heq => hname (heq.trans hstem)
      rw [Contents.set_ne (hother _ hstems.2), Contents.set_ne (hother _ hstems.1)] at hheld
      cases hheld
  subst hnone
  exact ⟨a, a', hsave, hfirst.load (by decide), hsave', hsecond.load (by decide), hall⟩

end StepLedger.Archive

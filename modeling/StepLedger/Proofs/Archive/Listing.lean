import Mathlib.Data.List.Perm.Basic
import StepLedger.Proofs.Archive.Contents

/-!
# What is loaded from a directory

A file of the directory is `Archive.Genuine` if it is called after the collection of the snapshot that
it holds. What is loaded are the genuine files, one after the other: each must be
`Snapshot.Restorable` and gives one collection, and no other file matters
(`Archive.loadFiles_eq_ok_iff`, `Archive.loadFiles_genuineFiles`). So only the genuine files decide
what is loaded, and their order decides no more than the order of the collections
(`Archive.loadAll_genuine`).
-/

namespace StepLedger

/-! ## Collections of documents -/

namespace Collection

variable {c : Collection} {name : String} {ds : List Document}

/-- The collection of documents is well formed, and unlike any other with these documents it counts no
changes. -/
theorem ofDocuments_eq_ok_iff : ofDocuments name ds = .ok c ↔
    c.WellFormed ∧ c.name = name ∧ c.documents = ds ∧ c.revision = 0 := by
  constructor
  · intro h
    obtain ⟨hwf, hname⟩ := wellFormed_of_ofDocuments h
    obtain ⟨inserted, hinserted, h⟩ := Except.bind_eq_ok.1 h
    cases h
    exact ⟨hwf, hname, (foldlM_insert_eq_ok hinserted).1, rfl⟩
  · rintro ⟨hwf, rfl, rfl, hrevision⟩
    rw [hwf.ofDocuments, ← hrevision]

/-- Documents form a collection if all have keys and no two the same. -/
theorem exists_ofDocuments_iff : (∃ c, ofDocuments name ds = .ok c) ↔
    (∀ d ∈ ds, ∃ id, d.get? idField = some id) ∧ (ds.map Document.key?).Nodup := by
  constructor
  · rintro ⟨c, h⟩
    obtain ⟨hwf, -, rfl, -⟩ := ofDocuments_eq_ok_iff.1 h
    exact ⟨fun d => hwf.exists_id, hwf.nodup_documents⟩
  · rintro ⟨hkeyed, hnodup⟩
    have hkeys : ds.map Document.key? = (ds.filterMap Document.key?).map some := by
      rw [List.map_filterMap]
      refine (List.filterMap_eq_map_iff_forall_eq_some.2 fun d hd => ?_).symm
      obtain ⟨id, hid⟩ := hkeyed d hd
      rw [Document.key?, hid]
      rfl
    have hwf : WellFormed ⟨name, ds, ds.filterMap Document.key?, 0⟩ :=
      ⟨hkeys, (hkeys ▸ hnodup).of_map _⟩
    exact ⟨_, hwf.ofDocuments name⟩

end Collection

namespace Snapshot

variable {s : Snapshot} {c : Collection}

/-- The snapshot is of the version that can be read, and its documents form a collection. -/
structure Restorable (s : Snapshot) : Prop where
  version : s.version = 1
  keyed : ∀ d ∈ s.documents, ∃ id, d.get? idField = some id
  apart : (s.documents.map Document.key?).Nodup

/-- The collection is what the snapshot was taken of, as if it had never changed. -/
structure Restores (s : Snapshot) (c : Collection) : Prop where
  name : c.name = s.collection
  documents : c.documents = s.documents
  revision : c.revision = 0

theorem restore_eq_ok_iff {shown : String} :
    Archive.restore shown s = .ok c ↔ s.version = 1 ∧ c.WellFormed ∧ s.Restores c := by
  rw [Archive.restore_eq_ok, Collection.ofDocuments_eq_ok_iff]
  exact and_congr_right fun _ => and_congr_right fun _ =>
    ⟨fun ⟨hname, hdocuments, hrevision⟩ => ⟨hname, hdocuments, hrevision⟩,
      fun h => ⟨h.name, h.documents, h.revision⟩⟩

theorem exists_restore_iff {shown : String} :
    (∃ c, Archive.restore shown s = .ok c) ↔ s.Restorable := by
  simp only [Archive.restore_eq_ok, exists_and_left, Collection.exists_ofDocuments_iff]
  exact ⟨fun ⟨hversion, hkeyed, hapart⟩ => ⟨hversion, hkeyed, hapart⟩,
    fun h => ⟨h.version, h.keyed, h.apart⟩⟩

end Snapshot

namespace Archive

variable {a b : Archive} {s : Snapshot} {c : Collection} {cs : List Collection}
  {entry : String × Node} {files : List (String × Node)}

/-! ## Genuine files -/

/-- The file holds the snapshot and is called after the collection of it. -/
structure Genuine (entry : String × Node) (s : Snapshot) : Prop where
  named : s.collection ≠ ""
  called : entry.1 = s.collection ++ ".json"
  holds : ∃ text, entry.2 = .file text ∧ Snapshot.ofText? text = some s

theorem read_eq_ok {node : Node} :
    read node = .ok s ↔ ∃ text, node = .file text ∧ Snapshot.ofText? text = some s := by
  cases node with
  | directory => exact ⟨nofun, nofun⟩
  | file text =>
    rw [read]
    constructor
    · intro h
      split at h
      · next found hfound =>
        cases h
        exact ⟨text, rfl, hfound⟩
      · cases h
    · rintro ⟨_, heq, hfound⟩
      cases heq
      rw [hfound]

theorem genuine?_eq_some : genuine? entry.1 entry.2 = some s ↔ Genuine entry s := by
  have hcalled : fileName s.collection = s.collection ++ ".json" := String.append_assoc
  rw [genuine?]
  constructor
  · intro h
    split at h
    · next name found hfile hread =>
      obtain ⟨hname, heq⟩ := Option.ite_none_right_eq_some.1 h
      cases heq
      obtain ⟨hnamed, hentry⟩ := collection?_eq_some_iff.1 hfile
      rw [← hname] at hnamed hentry
      exact ⟨hnamed, hentry.trans hcalled, read_eq_ok.1 hread⟩
    · cases h
  · intro h
    rw [collection?_eq_some_iff.2 ⟨h.named, h.called.trans hcalled.symm⟩, read_eq_ok.2 h.holds]
    exact if_pos rfl

instance (entry : String × Node) : Decidable (∃ s, Genuine entry s) :=
  decidable_of_iff ((genuine? entry.1 entry.2).isSome = true) <| by
    simp only [Option.isSome_iff_exists, genuine?_eq_some]

/-- The genuine files among some. -/
def genuineFiles (files : List (String × Node)) : List (String × Node) :=
  files.filter fun entry => ∃ s, Genuine entry s

/-- The file is genuine and gives the collection. -/
def Gives (entry : String × Node) (c : Collection) : Prop :=
  ∃ s, Genuine entry s ∧ s.version = 1 ∧ c.WellFormed ∧ s.Restores c

theorem gives_iff (h : Genuine entry s) (shown : String) :
    Gives entry c ↔ restore shown s = .ok c := by
  rw [Snapshot.restore_eq_ok_iff]
  refine ⟨fun ⟨s', hs', hc⟩ => ?_, fun hc => ⟨s, h, hc⟩⟩
  rw [← genuine?_eq_some] at h hs'
  cases h.symm.trans hs'
  exact hc

theorem genuineFiles_cons_of_genuine (h : Genuine entry s) :
    genuineFiles (entry :: files) = entry :: genuineFiles files :=
  List.filter_cons_of_pos (by simpa using ⟨s, h⟩)

theorem genuineFiles_cons_of_not (h : ¬ ∃ s, Genuine entry s) :
    genuineFiles (entry :: files) = genuineFiles files :=
  List.filter_cons_of_neg (by simpa using h)

/-! ## One file after the other -/

theorem loadFiles_cons_of_genuine (h : Genuine entry s) : a.loadFiles (entry :: files) = do
    let c ← restore (a.directory.join ⟨false, [entry.1]⟩).text s
    return c :: (← a.loadFiles files) := by
  rw [loadFiles, genuine?_eq_some.2 h]

theorem loadFiles_cons_of_not (h : ¬ ∃ s, Genuine entry s) :
    a.loadFiles (entry :: files) = a.loadFiles files := by
  have hnone : genuine? entry.1 entry.2 = none :=
    Option.eq_none_iff_forall_ne_some.2 fun s hs => h ⟨s, genuine?_eq_some.1 hs⟩
  rw [loadFiles, hnone]

/-- Files that are not genuine are passed over. -/
theorem loadFiles_genuineFiles (a : Archive) (files : List (String × Node)) :
    a.loadFiles (genuineFiles files) = a.loadFiles files := by
  induction files with
  | nil => rfl
  | cons entry files ih =>
    by_cases h : ∃ s, Genuine entry s
    · obtain ⟨s, hs⟩ := h
      rw [genuineFiles_cons_of_genuine hs, loadFiles_cons_of_genuine hs,
        loadFiles_cons_of_genuine hs, ih]
    · rw [genuineFiles_cons_of_not h, loadFiles_cons_of_not h, ih]

/-- Of the archive itself only the name of the directory matters, and that to errors only. -/
theorem loadFiles_congr (h : b.directory = a.directory) (files : List (String × Node)) :
    b.loadFiles files = a.loadFiles files := by
  induction files with
  | nil => rfl
  | cons entry files ih => rw [loadFiles, loadFiles, h, ih]

/-- Every genuine file gives one collection, in the order of the files. -/
theorem loadFiles_eq_ok_iff :
    a.loadFiles files = .ok cs ↔ List.Forall₂ Gives (genuineFiles files) cs := by
  induction files generalizing cs with
  | nil =>
    rw [genuineFiles, List.filter_nil, List.forall₂_nil_left_iff, loadFiles, Except.ok.injEq, eq_comm]
  | cons entry files ih =>
    by_cases h : ∃ s, Genuine entry s
    · obtain ⟨s, hs⟩ := h
      rw [genuineFiles_cons_of_genuine hs, loadFiles_cons_of_genuine hs, List.forall₂_cons_left_iff,
        Except.bind_eq_ok]
      simp only [← gives_iff hs _]
      constructor
      · rintro ⟨c, hc, hrest⟩
        obtain ⟨cs', hcs', heq⟩ := Except.bind_eq_ok.1 hrest
        cases heq
        exact ⟨c, cs', hc, ih.1 hcs', rfl⟩
      · rintro ⟨c, cs', hc, hcs', rfl⟩
        exact ⟨c, hc, Except.bind_eq_ok.2 ⟨cs', ih.2 hcs', rfl⟩⟩
    · rw [genuineFiles_cons_of_not h, loadFiles_cons_of_not h, ih]

/-- The files can be loaded if each genuine one can. -/
theorem exists_loadFiles_iff : (∃ cs, a.loadFiles files = .ok cs) ↔
    ∀ entry ∈ files, ∀ s, Genuine entry s → s.Restorable := by
  simp only [loadFiles_eq_ok_iff]
  induction files with
  | nil => exact ⟨fun _ => nofun, fun _ => ⟨[], .nil⟩⟩
  | cons entry files ih =>
    rw [List.forall_mem_cons, ← ih]
    by_cases h : ∃ s, Genuine entry s
    · obtain ⟨s, hs⟩ := h
      have hgives : (∃ c, Gives entry c) ↔ ∀ s, Genuine entry s → s.Restorable := by
        simp only [gives_iff hs "", Snapshot.exists_restore_iff]
        refine ⟨fun hrestorable s' hs' => ?_, fun hall => hall s hs⟩
        rw [← genuine?_eq_some] at hs hs'
        cases hs.symm.trans hs'
        exact hrestorable
      rw [genuineFiles_cons_of_genuine hs, ← hgives]
      simp only [List.forall₂_cons_left_iff]
      exact ⟨fun ⟨_, c, cs, hc, hcs, _⟩ => ⟨⟨c, hc⟩, cs, hcs⟩,
        fun ⟨⟨c, hc⟩, cs, hcs⟩ => ⟨_, c, cs, hc, hcs, rfl⟩⟩
    · rw [genuineFiles_cons_of_not h]
      exact ⟨fun hrest => ⟨fun s hs => absurd ⟨s, hs⟩ h, hrest⟩, And.right⟩

/-- In another order the files give the same collections in another order. -/
theorem loadFiles_of_perm {files' : List (String × Node)}
    (hperm : (genuineFiles files').Perm (genuineFiles files)) (h : a.loadFiles files = .ok cs) :
    ∃ cs', b.loadFiles files' = .ok cs' ∧ cs'.Perm cs := by
  obtain ⟨cs', hgives, hcs⟩ := List.perm_comp_forall₂ hperm (loadFiles_eq_ok_iff.1 h)
  exact ⟨cs', loadFiles_eq_ok_iff.2 hgives, hcs⟩

/-! ## The directory -/

/-- What stands in the directory, with the name of each. -/
def listing (a : Archive) : List (String × Node) := a.disk.files.children a.directory.place

theorem loadAll_eq (h : a.disk.files.find? a.directory = some .directory) :
    a.loadAll = a.loadFiles a.listing := by
  rw [FileSystem.find?] at h
  rw [loadAll]
  cases hresolve : a.disk.files.resolve a.directory with
  | error fault =>
    rw [hresolve] at h
    cases h
  | ok place =>
    rw [hresolve] at h
    obtain rfl := FileSystem.eq_place_of_resolve hresolve
    dsimp only at h ⊢
    rw [FileSystem.directoryFault?_eq_none_iff.2 (decide_eq_true h), listing]

/-- All collections can be loaded if every genuine file can be restored, and each of these gives the
collection after which it is called, with the documents of the snapshot. Two directories of one name
with the same genuine files load alike; if the files are listed in another order, then only the order
of the collections differs. -/
theorem loadAll_genuine (hfound : a.disk.files.find? a.directory = some .directory) :
    ((∃ cs, a.loadAll = .ok cs) ↔
      ∀ entry ∈ a.listing, ∀ s, Genuine entry s → s.Restorable) ∧
    (∀ cs, a.loadAll = .ok cs →
      List.Forall₂ (fun entry c => ∃ s, Genuine entry s ∧ s.Restores c)
        (genuineFiles a.listing) cs) ∧
    ∀ b : Archive, b.disk.files.find? b.directory = some .directory →
      (b.directory = a.directory → genuineFiles b.listing = genuineFiles a.listing →
        b.loadAll = a.loadAll) ∧
      ((genuineFiles b.listing).Perm (genuineFiles a.listing) →
        ((∃ cs, b.loadAll = .ok cs) ↔ ∃ cs, a.loadAll = .ok cs) ∧
        ∀ cs cs', a.loadAll = .ok cs → b.loadAll = .ok cs' → cs'.Perm cs) := by
  rw [loadAll_eq hfound]
  refine ⟨exists_loadFiles_iff, fun cs h => ?_, fun b hfound' => ?_⟩
  · exact (loadFiles_eq_ok_iff.1 h).imp fun _ _ ⟨s, hs, _, _, hc⟩ => ⟨s, hs, hc⟩
  rw [loadAll_eq hfound']
  refine ⟨fun hdirectory hsame => ?_, fun hperm => ⟨⟨?_, ?_⟩, fun cs cs' h h' => ?_⟩⟩
  · rw [loadFiles_congr hdirectory, ← loadFiles_genuineFiles a b.listing, hsame,
      loadFiles_genuineFiles]
  · rintro ⟨cs, h⟩
    exact (loadFiles_of_perm hperm.symm h).imp fun _ => And.left
  · rintro ⟨cs, h⟩
    exact (loadFiles_of_perm hperm h).imp fun _ => And.left
  · obtain ⟨cs'', hload, hcs⟩ := loadFiles_of_perm (b := b) hperm h
    cases h'.symm.trans hload
    exact hcs

/-- The text of the snapshot of a collection with one page. -/
def pagesText : String := (Snapshot.ofCollection (drawer none).disk.now (pages "pages")).text

/-- An archive with a genuine file, a copy of it and a directory that is called like a file. -/
def mixed : Archive := (drawer none).withFiles
  ⟨[(["data"], .directory), (["data", "copy.json"], .file pagesText),
    (["data", "pages.json"], .file pagesText), (["data", "old.json"], .directory)]⟩

theorem listing_mixed : mixed.listing = [("copy.json", .file pagesText),
    ("pages.json", .file pagesText), ("old.json", .directory)] := rfl

theorem genuine_of_mixed (hentry : entry ∈ mixed.listing) : Genuine entry s ↔
    entry.1 = "pages.json" ∧ s = Snapshot.ofCollection (drawer none).disk.now (pages "pages") := by
  have hread : Snapshot.ofText? pagesText = _ := Snapshot.ofText?_ofCollection (durable_pages "pages")
  simp only [listing_mixed, List.mem_cons, List.not_mem_nil, or_false] at hentry
  constructor
  · rintro ⟨-, hcalled, text, htext, hs⟩
    obtain rfl | rfl | rfl := hentry
    · cases htext
      cases hread.symm.trans hs
      exact absurd hcalled (by decide)
    · cases htext
      cases hread.symm.trans hs
      exact ⟨rfl, rfl⟩
    · cases htext
  · rintro ⟨hcalled, rfl⟩
    obtain rfl | rfl | rfl := hentry
    · exact absurd hcalled (by decide)
    · exact ⟨by decide, by decide, pagesText, rfl, hread⟩
    · exact absurd hcalled (by decide)

theorem genuineFiles_mixed : genuineFiles mixed.listing = [("pages.json", .file pagesText)] := by
  have hgenuine : ∀ entry ∈ mixed.listing, (∃ s, Genuine entry s) ↔ entry.1 = "pages.json" :=
    fun entry hentry => by simp only [genuine_of_mixed hentry, exists_and_left, exists_eq, and_true]
  calc genuineFiles mixed.listing = mixed.listing.filter fun entry => entry.1 = "pages.json" :=
        List.filter_congr fun entry hentry => decide_eq_decide.2 (hgenuine entry hentry)
    _ = [("pages.json", .file pagesText)] := by simp [listing_mixed]

/-- The collection of the genuine file is loaded, and nothing else. -/
theorem loadAll_genuine_of_mixed :
    mixed.disk.files.find? mixed.directory = some .directory ∧
      ∃ c, mixed.loadAll = .ok [c] ∧ c.name = "pages" ∧ c.documents = [.page] ∧ c.revision = 0 := by
  have hfound : mixed.disk.files.find? mixed.directory = some .directory := rfl
  obtain ⟨hloads, hgives, -⟩ := loadAll_genuine hfound
  obtain ⟨cs, hcs⟩ := hloads.2 fun entry hentry s hs => by
    obtain ⟨-, rfl⟩ := (genuine_of_mixed hentry).1 hs
    have hwf := (reachable_pages "pages").wellFormed
    exact ⟨rfl, fun d => hwf.exists_id, hwf.nodup_documents⟩
  have hall := hgives cs hcs
  rw [genuineFiles_mixed, List.forall₂_cons_left_iff] at hall
  obtain ⟨c, rest, ⟨s, hs, hc⟩, hrest, rfl⟩ := hall
  cases List.forall₂_nil_left_iff.1 hrest
  obtain ⟨-, rfl⟩ := (genuine_of_mixed (by simp [listing_mixed])).1 hs
  exact ⟨hfound, c, hcs, hc.name, hc.documents, hc.revision⟩

end Archive

end StepLedger

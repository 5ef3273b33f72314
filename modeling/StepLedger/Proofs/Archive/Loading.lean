import StepLedger.Proofs.Archive
import StepLedger.Proofs.Collection.WellFormed
import StepLedger.Proofs.Snapshot

/-!
# Loading collections

The snapshot of a collection gives it back, but for the count of the changes
(`Archive.restore_snapshot`). From the files of a directory comes what each of them gives on its own
(`Archive.loadFiles_eq`), and no two of the collections have the same name (`Archive.nodup_restored`).
-/

namespace StepLedger

namespace Archive

variable {a : Archive} {c : Collection} {now : Calendar.Instant} {file name shown : String}
  {node : Node} {s : Snapshot} {files : List (String × Node)}

/-! ## One file -/

theorem restore_eq_ok : restore shown s = .ok c ↔ s.version = Snapshot.currentVersion ∧
    Collection.ofDocuments s.collection s.documents = .ok c := by
  rw [restore]
  split <;> simp_all

theorem restore_snapshot (h : c.WellFormed) :
    restore shown (Snapshot.ofCollection now c) = .ok { c with revision := 0 } :=
  restore_eq_ok.2 ⟨rfl, h.ofDocuments c.name⟩

/-- The collection that a file of the directory gives. -/
def restored? (entry : String × Node) : Option Collection :=
  (genuine? entry.1 entry.2).bind fun s => (restore entry.1 s).toOption

/-- What a file gives has the name of the file. -/
theorem fileName_of_restored? (h : restored? (file, node) = some c) : file = fileName c.name := by
  obtain ⟨s, hgenuine, hrestore⟩ := Option.bind_eq_some_iff.1 h
  have hname : c.name = s.collection := by
    dsimp only at hrestore
    cases hs : restore file s with
    | error e => rw [hs] at hrestore; cases hrestore
    | ok c' =>
      rw [hs] at hrestore
      cases hrestore
      exact (Collection.wellFormed_of_ofDocuments (restore_eq_ok.1 hs).2).2
  rw [genuine?] at hgenuine
  split at hgenuine
  · next name s' hfile _ =>
    split at hgenuine
    · next hs =>
      cases hgenuine
      rw [hname, hs]
      exact (collection?_eq_some_iff.1 hfile).2
    · cases hgenuine
  · cases hgenuine

/-- The snapshot of a collection without binary64 numbers is read from a file that is called after the
collection, unless a document is nested too deep. -/
theorem genuine?_eq_some_iff (hname : name ≠ "") (hwhole : ∀ d ∈ c.documents, d.Whole) :
    genuine? (fileName name) (.file (Snapshot.ofCollection now c).text) = some s ↔
      c.name = name ∧ (∀ d ∈ c.documents, d.Shallow) ∧
        s = Snapshot.ofCollection now.carried c := by
  rw [genuine?, collection?_eq_some_iff.2 ⟨hname, rfl⟩, read]
  by_cases hshallow : ∀ d ∈ c.documents, d.Shallow
  · have hread : Snapshot.ofText? (Snapshot.ofCollection now c).text = _ :=
      Snapshot.ofText?_ofCollection fun d hd => Document.durable_iff.2 ⟨hwhole d hd, hshallow d hd⟩
    rw [hread]
    dsimp only
    rw [Option.ite_none_right_eq_some, Option.some_inj, eq_comm (a := s)]
    exact and_congr_right fun _ => ⟨fun h => ⟨hshallow, h⟩, And.right⟩
  · have hdeep := hshallow
    simp only [not_forall] at hdeep
    obtain ⟨d, hd, hdeep⟩ := hdeep
    have hread : Snapshot.ofText? (Snapshot.ofCollection now c).text = none :=
      Snapshot.ofText?_text_of_deep hwhole hd hdeep
    rw [hread]
    constructor
    · intro h
      cases h
    · rintro ⟨-, h, -⟩
      exact absurd h hshallow

/-- The file of such a snapshot gives the collection back. -/
theorem restored?_eq_some_iff {c' : Collection} (hname : name ≠ "") (hc : c.WellFormed)
    (hwhole : ∀ d ∈ c.documents, d.Whole) :
    restored? (fileName name, .file (Snapshot.ofCollection now c).text) = some c' ↔
      c.name = name ∧ (∀ d ∈ c.documents, d.Shallow) ∧ c' = { c with revision := 0 } := by
  rw [restored?, Option.bind_eq_some_iff]
  simp only [genuine?_eq_some_iff hname hwhole]
  constructor
  · rintro ⟨s, ⟨hs, hshallow, rfl⟩, hc'⟩
    rw [restore_snapshot hc] at hc'
    exact ⟨hs, hshallow, (Option.some.inj hc').symm⟩
  · rintro ⟨hs, hshallow, rfl⟩
    exact ⟨_, ⟨hs, hshallow, rfl⟩, by rw [restore_snapshot hc]; rfl⟩

/-! ## All files -/

/-- The files give what each of them gives, if every snapshot among them can be restored. -/
theorem loadFiles_eq (h : ∀ file node s, (file, node) ∈ files → genuine? file node = some s →
    ∃ c, ∀ shown, restore shown s = .ok c) : a.loadFiles files = .ok (files.filterMap restored?) := by
  induction files with
  | nil => rfl
  | cons entry files ih =>
    obtain ⟨file, node⟩ := entry
    have hrest := ih fun file node s hmem => h file node s (List.mem_cons_of_mem _ hmem)
    rw [loadFiles, List.filterMap_cons, restored?]
    cases hgenuine : genuine? file node with
    | none => exact hrest
    | some s =>
      obtain ⟨c, hc⟩ := h file node s List.mem_cons_self hgenuine
      dsimp only
      rw [Option.bind_some, hc, hc, hrest]
      rfl

/-- Files of different names give collections of different names. -/
theorem nodup_restored (h : (files.map Prod.fst).Nodup) :
    ((files.filterMap restored?).map Collection.name).Nodup := by
  rw [List.Nodup, List.pairwise_map] at h ⊢
  refine h.filterMap restored? ?_
  rintro ⟨file, node⟩ ⟨file', node'⟩ hne c hc c' hc' heq
  rw [ne_eq, fileName_of_restored? hc, fileName_of_restored? hc', fileName_inj] at hne
  exact hne heq

end Archive

end StepLedger

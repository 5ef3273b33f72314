import StepLedger.Proofs.Calendar.Reading
import StepLedger.Proofs.Document.Fields
import StepLedger.Proofs.Json.Rebuilding
import StepLedger.Proofs.Json.Words
import StepLedger.Snapshot

/-!
# Snapshots read back

A document is `Durable` if a snapshot keeps it: it has no binary64 numbers and is not nested deeper
than a reader follows. The text of a snapshot of durable documents is read back as that snapshot
(`Snapshot.ofText?_text`). If one document is nested too deep, the whole snapshot is lost
(`Snapshot.ofText?_text_of_deep`).
-/

namespace StepLedger

open Json (Tree)

namespace Document

/-- The document is kept by a snapshot. -/
def Durable (d : Document) : Prop :=
  ∀ name value, d.get? name = some value → value.Whole ∧ value.Fits (Tree.maxNesting - 3)

/-- The document has no binary64 numbers. -/
def Whole (d : Document) : Prop := ∀ name value, d.get? name = some value → value.Whole

/-- The document is not nested deeper than a reader of snapshots follows. -/
def Shallow (d : Document) : Prop :=
  ∀ name value, d.get? name = some value → value.Fits (Tree.maxNesting - 3)

theorem durable_iff {d : Document} : d.Durable ↔ d.Whole ∧ d.Shallow :=
  ⟨fun h => ⟨fun name value hvalue => (h name value hvalue).1,
    fun name value hvalue => (h name value hvalue).2⟩,
    fun h name value hvalue => ⟨h.1 name value hvalue, h.2 name value hvalue⟩⟩

theorem Whole.object {d : Document} (h : d.Whole) : (Json.Value.object d.fields).Whole := by
  rw [Json.Value.Whole, Json.Value.wholeFields_iff]
  exact fun field hfield => h field.1 field.2 (get?_of_mem hfield)

theorem shallow_of_fits {d : Document}
    (h : (Json.Value.object d.fields).Fits (Tree.maxNesting - 2)) : d.Shallow := by
  rw [Json.Value.Fits, Json.Value.fitFields_iff] at h
  exact fun name value hvalue => h.2 _ (Entries.mem_of_find?_eq_some hvalue)

theorem Durable.fits {d : Document} (h : d.Durable) :
    (Json.Value.object d.fields).Fits (Tree.maxNesting - 2) := by
  rw [Json.Value.Fits, Json.Value.fitFields_iff]
  exact ⟨by decide, fun field hfield => (h field.1 field.2 (get?_of_mem hfield)).2⟩

end Document

namespace Snapshot

theorem document?_tree {d : Document} (h : d.Durable) :
    document? (Json.Value.object d.fields).tree = some d := by
  have htree := Json.Tree.json?_tree (show d.toJson.value.Fits _ from h.fits)
  rw [document?]
  rw [show (Json.Value.object d.fields).tree = d.toJson.value.tree from rfl, htree]
  rfl

theorem documents?_tree {ds : List Document} (h : ∀ d ∈ ds, d.Durable) :
    documents? (Json.Value.array (ds.map fun d => .object d.fields)).tree = some ds := by
  rw [Json.Value.tree, documents?]
  induction ds with
  | nil => rfl
  | cons d ds ih =>
    rw [List.map_cons, Json.Value.itemTrees, List.mapM_cons, document?_tree (h d List.mem_cons_self),
      ih fun d hd => h d (List.mem_cons_of_mem _ hd)]
    rfl

/-- A part that is no container is read as what it decodes to. -/
theorem part?_tree {α : Type} {decode : Json.Value → Except DecodeError α} {value : Json.Value}
    {a : α} (hvalue : value.tree.value? (Tree.maxNesting - 1) = some value)
    (hdecode : decode value = .ok a) : part? decode value.tree = some a := by
  rw [part?, hvalue, Option.bind_some, hdecode]
  rfl

theorem ofParts?_tree {s : Snapshot} (h : ∀ d ∈ s.documents, d.Durable) :
    ofParts? (Json.Value.number (.ofUInt32 s.version)).tree (Json.Value.string s.collection).tree
      (Json.Value.string s.writtenAt.text).tree
      (Json.Value.array (s.documents.map fun d => .object d.fields)).tree =
        some { s with writtenAt := s.writtenAt.carried } := by
  have hwritten : (Json.Value.string s.writtenAt.text).toInstant = .ok s.writtenAt.carried := by
    rw [Json.Value.toInstant, Calendar.Instant.ofText_text]
    rfl
  have hcollection : (Json.Value.string s.collection).toText = .ok s.collection := rfl
  rw [ofParts?, part?_tree rfl (Json.Value.toUInt32_ofUInt32 s.version),
    part?_tree rfl hcollection, part?_tree rfl hwritten, documents?_tree h]
  rfl

theorem tree_toValue (s : Snapshot) : s.toValue.tree = .object [
    (some "version", (Json.Value.number (.ofUInt32 s.version)).tree),
    (some "collection", (Json.Value.string s.collection).tree),
    (some "written_at", (Json.Value.string s.writtenAt.text).tree),
    (some "documents", (Json.Value.array (s.documents.map fun d => .object d.fields)).tree)] := rfl

/-- The four parts are found by name. -/
theorem ofTree?_object (version collection writtenAt documents : Tree) :
    ofTree? (.object [(some "version", version), (some "collection", collection),
      (some "written_at", writtenAt), (some "documents", documents)]) =
        ofParts? version collection writtenAt documents := by
  simp [ofTree?, only?]

theorem whole_toValue {s : Snapshot} (h : ∀ d ∈ s.documents, d.Whole) : s.toValue.Whole := by
  have hdocuments : Json.Value.WholeItems (s.documents.map fun d => .object d.fields) := by
    rw [Json.Value.wholeItems_iff, List.forall_mem_map]
    exact fun d hd => (h d hd).object
  exact ⟨trivial, trivial, trivial, hdocuments, trivial⟩

theorem ofText?_eq {s : Snapshot} (h : ∀ d ∈ s.documents, d.Whole) : ofText? s.text =
    ofParts? (Json.Value.number (.ofUInt32 s.version)).tree (Json.Value.string s.collection).tree
      (Json.Value.string s.writtenAt.text).tree
      (Json.Value.array (s.documents.map fun d => .object d.fields)).tree := by
  rw [ofText?, text, String.toList_ofList, render, Tree.ofText?_render (whole_toValue h),
    Option.bind_some, tree_toValue, ofTree?_object]

/-- The text of a snapshot of durable documents is read back; only the nanoseconds of the time when it
was written are carried. -/
theorem ofText?_text {s : Snapshot} (h : ∀ d ∈ s.documents, d.Durable) :
    ofText? s.text = some { s with writtenAt := s.writtenAt.carried } := by
  rw [ofText?_eq fun d hd => (Document.durable_iff.1 (h d hd)).1]
  exact ofParts?_tree h

theorem ofText?_ofCollection {now : Calendar.Instant} {c : Collection}
    (h : ∀ d ∈ c.documents, d.Durable) :
    ofText? (ofCollection now c).text = some (ofCollection now.carried c) := ofText?_text h

/-- A document that is read back is not nested too deep. -/
theorem fits_of_document? {d read : Document}
    (h : document? (Json.Value.object d.fields).tree = some read) :
    (Json.Value.object d.fields).Fits (Tree.maxNesting - 2) := by
  obtain ⟨json, hjson, -⟩ := Option.bind_eq_some_iff.1 h
  rw [Tree.json?] at hjson
  generalize Tree.maxNesting - 2 = depth at hjson ⊢
  split at hjson
  · next hvalue => exact Tree.fits_of_value? hvalue
  · cases hjson

theorem shallow_of_documents? {ds read : List Document}
    (h : documents? (Json.Value.array (ds.map fun d => .object d.fields)).tree = some read) :
    ∀ d ∈ ds, d.Shallow := by
  rw [Json.Value.tree, documents?] at h
  induction ds generalizing read with
  | nil => exact fun d hd => by cases hd
  | cons d ds ih =>
    rw [List.map_cons, Json.Value.itemTrees, List.mapM_cons] at h
    obtain ⟨first, hfirst, h⟩ := Option.bind_eq_some_iff.1 h
    obtain ⟨rest, hrest, -⟩ := Option.bind_eq_some_iff.1 h
    intro other hother
    rcases List.mem_cons.1 hother with rfl | hother
    · exact Document.shallow_of_fits (fits_of_document? hfirst)
    · exact ih hrest other hother

theorem documents?_of_ofParts? {version collection writtenAt documents : Tree} {s : Snapshot}
    (h : ofParts? version collection writtenAt documents = some s) :
    documents? documents = some s.documents := by
  simp only [ofParts?, Option.bind_eq_bind, Option.bind_eq_some_iff] at h
  obtain ⟨_, -, _, -, _, -, _, hdocuments, h⟩ := h
  cases h
  exact hdocuments

/-- One document that is nested too deep makes the text unreadable. -/
theorem ofText?_text_of_deep {s : Snapshot} (h : ∀ d ∈ s.documents, d.Whole) {d : Document}
    (hd : d ∈ s.documents) (hdeep : ¬ d.Shallow) : ofText? s.text = none := by
  rw [ofText?_eq h]
  rw [Option.eq_none_iff_forall_ne_some]
  intro read hread
  exact hdeep (shallow_of_documents? (documents?_of_ofParts? hread) d hd)

end Snapshot

end StepLedger

import StepLedger.Proofs.Store.Failure
import StepLedger.Proofs.Store.Mutated

/-!
# Requests keep to their collection

A request can change nothing but the collection that it names and the one file of that
(`Store.Confined`). The name of a collection has neither a slash nor a dot in it, so that the file
stands in the directory of the archive, whatever the name is; a request by any other text is refused
before anything is made for it (`Store.confined_to_collection`).
-/

namespace StepLedger

open FileSystem

/-- The file of a collection has the name of the collection and the extension. -/
theorem Archive.place_eq (a : Archive) (name : String) :
    a.place name = a.directory.place ++ [name ++ ".json"] := by
  rw [place, fileName, String.append_assoc]
  rfl

namespace Store

variable {s s' : Store} {a : Archive} {name : String}

/-- A text that is empty, or has a character in it that is no ASCII letter, no digit, no underscore and
no hyphen. -/
def Improper (name : String) : Prop :=
  name = "" ∨ ∃ c ∈ name.toList, ¬ (c.isAlphanum ∨ c = '_' ∨ c = '-')

theorem isName_eq_false_iff : isName name = false ↔ Improper name := by
  rw [isName, Improper, Bool.and_eq_false_iff]
  refine or_congr (by simp) ?_
  rw [List.all_eq_false]
  simp [isNameChar, and_assoc]

/-- At most the collection of one name is another, and the one file that has the name of it. -/
structure Confined (s s' : Store) (a : Archive) (name : String) : Prop where
  collections : ∀ other, other ≠ name → s'.collection? other = s.collection? other
  closed : s'.closed = s.closed
  /-- Only files are other ones, and those only at one place. -/
  files : ∃ files, s'.archive = some (a.withFiles files) ∧
    (∀ place, place ≠ a.directory.place ++ [name ++ ".json"] →
      files.node? place = a.disk.files.node? place) ∧
    ∀ p : Path, p.place ≠ a.directory.place ++ [name ++ ".json"] →
      files.find? p = a.disk.files.find? p

theorem Confined.refl (ha : s.archive = some a) (name : String) : s.Confined s a name :=
  ⟨fun _ _ => rfl, rfl, a.disk.files, ha, fun _ _ => rfl, fun _ _ => rfl⟩

/-- What keeps the files does not change them. -/
theorem Confined.of_archive (ha : s.archive = some a) (harchive : s'.archive = s.archive)
    (hclosed : s'.closed = s.closed)
    (hcollections : ∀ other, other ≠ name → s'.collection? other = s.collection? other) :
    s.Confined s' a name :=
  ⟨hcollections, hclosed, a.disk.files, harchive.trans ha, fun _ _ => rfl, fun _ _ => rfl⟩

theorem Confined.of_differAt {files : FileSystem}
    (h : DifferAt a.disk.files files (a.place name)) (harchive : s'.archive = some (a.withFiles files))
    (hclosed : s'.closed = s.closed)
    (hcollections : ∀ other, other ≠ name → s'.collection? other = s.collection? other) :
    s.Confined s' a name := by
  refine ⟨hcollections, hclosed, files, harchive, ?_, ?_⟩
  · rw [← a.place_eq]
    exact h.node
  · rw [← a.place_eq]
    exact fun p => h.find?

theorem Confined.creating (ha : s.archive = some a) (name : String) :
    s.Confined (s.creating name) a name :=
  .of_archive ha (archive_creating s name) (closed_creating s name) fun other hne =>
    (collection?_creating s name other).trans (if_neg hne)

theorem Confined.saving {c : Collection} (hc : c.name = name) (h : a.Ready name) :
    s.Confined (s.saving name a c) a name := by
  subst hc
  have hdiffer : DifferAt a.disk.files (a.keeping c).disk.files (a.place c.name) :=
    differAt_put_file (Archive.place_ne_root a c.name) h.free _
  exact .of_differAt hdiffer rfl rfl fun other hne =>
    (collection?_saving s c.name other a c).trans (if_neg hne)

theorem Confined.erasing (ha : s.archive = some a) (name : String) :
    s.Confined (s.erasing name) a name :=
  .of_archive ha rfl rfl fun other hne => (collection?_erasing s name other).trans (if_neg hne)

theorem Confined.discarding (hfile : a.disk.files.isDirectory (a.place name) = false) :
    s.Confined (s.discarding name a) a name := by
  have hdiffer : DifferAt a.disk.files (a.without name).disk.files (a.place name) :=
    differAt_remove (Archive.place_ne_root a name) hfile
  exact .of_differAt hdiffer rfl rfl fun other hne =>
    (collection?_discarding s name other a).trans (if_neg hne)

/-! ## What requests do -/

/-- What is admitted has a proper name. -/
theorem not_improper_of_check (h : s.check name = .ok ()) : ¬ Improper name := by
  rw [← isName_eq_false_iff, (check_eq_ok.1 h).2]
  exact Bool.noConfusion

theorem Mutated.confined {α : Type} {create : Bool} {result : Except StoreError α}
    {operation : Collection → Except StoreError α × Collection}
    (h : Mutated s name create operation (result, s')) (ha : s.archive = some a) :
    s.Confined s' a name ∧ (Improper name → s' = s) := by
  cases h with
  | refused | absent => exact ⟨.refl ha name, fun _ => rfl⟩
  | inMemory _ _ memory => cases memory.symm.trans ha
  | idle admitted | void admitted =>
    exact ⟨.creating ha name, fun hname => absurd hname (not_improper_of_check admitted)⟩
  | written admitted _ durable _ _ named ready =>
    obtain rfl := Option.some.inj (durable.symm.trans ha)
    exact ⟨.saving named ready, fun hname => absurd hname (not_improper_of_check admitted)⟩

theorem Dropped.confined {result : Except StoreError Unit} (h : Dropped s name (result, s'))
    (ha : s.archive = some a) : s.Confined s' a name ∧ (Improper name → s' = s) := by
  cases h with
  | refused => exact ⟨.refl ha name, fun _ => rfl⟩
  | inMemory _ memory => cases memory.symm.trans ha
  | fileless admitted | failed admitted =>
    exact ⟨.erasing ha name, fun hname => absurd hname (not_improper_of_check admitted)⟩
  | deleted admitted durable file =>
    obtain rfl := Option.some.inj (durable.symm.trans ha)
    exact ⟨.discarding file, fun hname => absurd hname (not_improper_of_check admitted)⟩

/-- Whatever is asked of a store, and whether it is done or refused or fails, at most the collection
that is named and its file in the directory of the archive are changed. By a text that is no name of a
collection, nothing is. -/
theorem confined_to_collection (hs : s.Reachable) (ha : s.archive = some a) (request : Request) :
    s.Confined (s.answer request).2 a request.collection ∧
      (Improper request.collection → (s.answer request).2 = s) := by
  have hanswered := s.answered request
  generalize s.answer request = outcome at hanswered ⊢
  cases hanswered with
  | idle => exact ⟨.refl ha _, fun _ => rfl⟩
  | @edited _ _ absent _ edits => exact (edits.mutated hs.wellFormed absent).confined ha
  | dropped name => exact (dropped_drop s name).confined ha

/-- A page is filed under its own name, and nowhere above the directory. -/
theorem confined_to_collection_of_page :
    ((cabinet none).answer (.insertOne "pages" .page)).2.names = ["pages"] ∧
      (cabinet none).Confined ((cabinet none).answer (.insertOne "pages" .page)).2 (.drawer none)
        "pages" ∧
      ((cabinet none).answer (.insertOne "../pages" .page)).2 = cabinet none := by
  have hdot : Improper "../pages" := .inr ⟨'.', by decide, by decide⟩
  have hs := reachable_cabinet none
  refine ⟨rfl, (confined_to_collection hs rfl (.insertOne "pages" .page)).1, ?_⟩
  exact (confined_to_collection hs rfl (.insertOne "../pages" .page)).2 hdot

end Store

end StepLedger

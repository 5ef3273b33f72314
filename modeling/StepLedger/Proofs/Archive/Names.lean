import StepLedger.Archive
import StepLedger.Proofs.FileSystem
import StepLedger.Proofs.Text.Split

/-!
# What the files of an archive are called

The file of a collection is called after the stem of its name, which is the name without an extension
of its own. It stands in the directory of the archive (`Archive.file_of_inside`), and from what it is
called the stem can be read off again (`Archive.collection?_eq_some_iff`). For a name such as the
single dot, which leads to no file in the directory, it stands somewhere above
(`Archive.length_place_le`).
-/

namespace StepLedger

open FileSystem

/-! ## Cutting names -/

namespace Path

/-- A name is cut at its last dot, unless that begins the name. -/
theorem cutExtension?_eq_some_iff {name stem extension : String} :
    cutExtension? name = some (stem, extension) ↔
      stem ≠ "" ∧ '.' ∉ extension.toList ∧ name = stem ++ "." ++ extension := by
  have hlist : name = stem ++ "." ++ extension ↔
      name.toList.reverse = extension.toList.reverse ++ '.' :: stem.toList.reverse := by
    rw [← String.toList_inj, ← List.reverse_inj]
    simp [String.toList_append]
  rw [cutExtension?, hlist]
  constructor
  · intro h
    split at h
    · next after before hcut =>
      obtain ⟨hafter, htext⟩ := Text.cut?_eq_some_iff.1 hcut
      split at h
      · cases h
      · next hbefore =>
        cases h
        refine ⟨fun heq => hbefore ?_, by simpa using hafter, by simpa using htext⟩
        rw [← String.toList_inj, String.toList_ofList] at heq
        simpa using heq
    · cases h
  · rintro ⟨hstem, hextension, htext⟩
    have hnonempty : ¬ (stem.toList.reverse.isEmpty = true) := by
      simpa [List.isEmpty_iff, String.toList_eq_nil_iff] using hstem
    rw [htext, Text.cut?_eq_some_iff.2 ⟨by simpa using hextension, rfl⟩]
    simp only [hnonempty]
    simp

/-! ## Where paths lead -/

/-- No part of a path leads down more than one step. -/
theorem length_enter_le (place : Place) (part : String) :
    (enter place part).length ≤ place.length + 1 := by
  rw [enter, Place.above]
  split
  · exact Nat.le_succ _
  · split
    · split
      · next h => rw [h]; exact Nat.le_succ _
      · rw [List.length_dropLast]; omega
    · exact Nat.le_of_eq List.length_append

theorem length_enter_up_le (place : Place) : (enter place "..").length ≤ place.length := by
  rw [show enter place ".." = place.above from rfl, Place.above]
  split
  · next h => exact Nat.le_of_eq (congrArg List.length h.symm)
  · rw [List.length_dropLast]
    exact Nat.sub_le _ _

/-- Idle parts at the end of a path lead nowhere. -/
theorem foldl_enter_trim (start : Place) (parts : List String) :
    (trim parts).foldl enter start = parts.foldl enter start := by
  have hidle : ∀ (rest : List String) (place : Place), (∀ part ∈ rest, isIdle part = true) →
      rest.foldl enter place = place := by
    intro rest place h
    refine List.foldlRecOn (motive := fun result => result = place) rest enter rfl ?_
    rintro _ rfl part hpart
    rw [enter, if_pos (h part hpart)]
  have hparts : parts = trim parts ++ (parts.reverse.takeWhile isIdle).reverse := by
    rw [trim, ← List.reverse_append, List.takeWhile_append_dropWhile, List.reverse_reverse]
  conv => rhs; rw [hparts]
  rw [List.foldl_append]
  refine (hidle _ _ fun part hpart => ?_).symm
  exact List.all_eq_true.1 List.all_takeWhile part (List.mem_reverse.1 hpart)

/-- The last part that is left is not idle. -/
theorem isIdle_of_getLast?_trim {parts : List String} {last : String}
    (h : (trim parts).getLast? = some last) : isIdle last = false := by
  have hfirst := List.head?_dropWhile_not isIdle parts.reverse
  rw [trim, List.getLast?_reverse] at h
  rw [h] at hfirst
  simpa using hfirst

theorem trim_concat {last : String} (h : isIdle last = false) (parts : List String) :
    trim (parts ++ [last]) = parts ++ [last] := by
  rw [trim, List.reverse_append, List.reverse_singleton, List.singleton_append,
    List.dropWhile_cons_of_neg (by rw [h]; decide), ← List.singleton_append,
    List.reverse_append, List.reverse_reverse]
  rfl

/-- A path with another extension leads no deeper. -/
theorem length_place_withExtension_le (p : Path) (extension : String) :
    (p.withExtension extension).place.length ≤ p.place.length := by
  rw [withExtension]
  dsimp only
  split
  · exact Nat.le_refl _
  · next last hlast =>
    split
    · exact Nat.le_refl _
    · next hup =>
      have hdeep : ∀ name, (place ⟨p.absolute, (trim p.parts).dropLast ++ [name]⟩).length ≤
          p.place.length := by
        intro name
        obtain ⟨before, htrim⟩ := List.getLast?_eq_some_iff.1 hlast
        have hplace : p.place = before.foldl enter p.start ++ [last] := by
          rw [place, ← foldl_enter_trim, htrim, List.foldl_append]
          simp [enter, isIdle_of_getLast?_trim hlast, hup]
        rw [hplace, htrim, List.dropLast_concat, place, List.foldl_append, List.length_append]
        exact length_enter_le _ _
      split
      · exact hdeep _
      · split <;> exact hdeep _

end Path

/-! ## Names of files -/

namespace Archive

variable {a : Archive} {name other : String}

/-- The name of the file of a collection. -/
def fileName (collection : String) : String := collection ++ "." ++ extension

/-- The place of the file of a collection. -/
def place (a : Archive) (collection : String) : Place :=
  a.directory.place ++ [fileName collection]

/-- The parts of the path of the directory, without the empty one that ends it. -/
def trunk (a : Archive) : List String :=
  if a.directory.parts.getLast? = some "" then a.directory.parts.dropLast else a.directory.parts

/-- The path of the file for a stem. -/
def slot (a : Archive) (stem : String) : Path := ⟨a.directory.absolute, a.trunk ++ [fileName stem]⟩

/-- The name without an extension of its own. -/
def stem (name : String) : String :=
  match Path.cutExtension? name with
  | some (stem, _) => stem
  | none => name

/-- The name leads to a file in the directory. -/
def Inside (name : String) : Prop := '/' ∉ name.toList ∧ name ≠ "" ∧ stem name ≠ "."

instance (name : String) : Decidable (Inside name) :=
  inferInstanceAs (Decidable (_ ∧ _ ∧ _))

theorem fileName_inj : fileName name = fileName other ↔ name = other := by
  constructor
  · intro h
    have hlists := congrArg String.toList h
    simp only [fileName, String.toList_append, List.append_left_inj] at hlists
    exact String.toList_injective hlists
  · exact congrArg fileName

theorem place_inj : a.place name = a.place other ↔ name = other := by
  rw [place, place, List.append_right_inj, List.singleton_inj, fileName_inj]

theorem slot_inj : a.slot name = a.slot other ↔ name = other := by
  rw [slot, slot, Path.mk.injEq, List.append_right_inj, List.singleton_inj, fileName_inj]
  simp

/-- A file may hold the collection after which it is named. -/
theorem collection?_eq_some_iff {file : String} :
    collection? file = some name ↔ name ≠ "" ∧ file = fileName name := by
  have hextension : '.' ∉ extension.toList := by decide
  rw [collection?]
  constructor
  · intro h
    split at h
    · next stem ending hcut =>
      obtain ⟨hstem, -, hfile⟩ := Path.cutExtension?_eq_some_iff.1 hcut
      split at h
      · next heq =>
        cases h
        exact ⟨hstem, by rw [hfile, heq]; rfl⟩
      · cases h
    · cases h
  · rintro ⟨hname, rfl⟩
    rw [fileName, Path.cutExtension?_eq_some_iff.2 ⟨hname, hextension, rfl⟩]
    exact if_pos rfl

theorem stem_ne_empty (h : Inside name) : stem name ≠ "" := by
  rw [stem]
  split
  · next hcut => exact (Path.cutExtension?_eq_some_iff.1 hcut).1
  · exact h.2.1

theorem stem_of_notMem (h : '.' ∉ name.toList) : stem name = name := by
  rw [stem, Path.cutExtension?, Text.cut?_eq_none_iff.2 (by simpa using h)]

/-! ## Paths of files -/

theorem join_ofText (h : '/' ∉ name.toList) :
    a.directory.join (Path.ofText name) = ⟨a.directory.absolute, a.trunk ++ [name]⟩ := by
  have htext : Path.ofText name = ⟨false, [name]⟩ := by
    rw [Path.ofText]
    split
    · next rest heq => exact absurd (heq ▸ List.mem_cons_self) h
    · rw [Text.split_of_notMem h, List.map_singleton, String.ofList_toList]
  rw [htext]
  rfl

/-- The file of a collection stands under the stem of its name. -/
theorem file_of_inside (h : Inside name) : a.file name = a.slot (stem name) := by
  obtain ⟨hslash, hempty, hstem⟩ := h
  have hidle : Path.isIdle name = false := by
    rw [Path.isIdle, Bool.or_eq_false_iff, decide_eq_false_iff_not, decide_eq_false_iff_not]
    refine ⟨hempty, ?_⟩
    rintro rfl
    exact hstem (by decide)
  have hup : name ≠ ".." := by
    rintro rfl
    exact hstem (by decide)
  rw [file, join_ofText hslash, Path.withExtension]
  dsimp only
  rw [Path.trim_concat hidle, List.getLast?_concat]
  dsimp only
  rw [if_neg hup, List.dropLast_concat]
  rw [stem] at hstem ⊢
  split
  · next hnone => rw [hnone]; rfl
  · next hcut =>
    rw [hcut] at hstem ⊢
    rw [if_neg fun h => hstem h.1]
    rfl

theorem foldl_trunk (start : Place) :
    a.trunk.foldl Path.enter start = a.directory.parts.foldl Path.enter start := by
  rw [trunk]
  split
  · next hlast =>
    obtain ⟨before, hparts⟩ := List.getLast?_eq_some_iff.1 hlast
    rw [hparts, List.dropLast_concat, List.foldl_append]
    rfl
  · rfl

/-- The name of a file leads somewhere, and not back. -/
theorem not_isIdle_fileName (name : String) :
    ¬ (Path.isIdle (fileName name) ∨ fileName name = "..") := by
  have hlong : (fileName name).length = name.length + 5 := by
    rw [fileName, String.length_append, String.length_append]
    rfl
  have hlengths : ("" : String).length = 0 ∧ ("." : String).length = 1 ∧
      (".." : String).length = 2 := ⟨rfl, rfl, rfl⟩
  have hne : fileName name ≠ "" ∧ fileName name ≠ "." ∧ fileName name ≠ ".." := by
    refine ⟨?_, ?_, ?_⟩ <;> intro heq <;> rw [heq] at hlong <;> omega
  simp [Path.isIdle, hne]

theorem enter_fileName (place : Place) (name : String) :
    Path.enter place (fileName name) = place ++ [fileName name] := by
  have hname := not_isIdle_fileName name
  rw [not_or] at hname
  rw [Path.enter, if_neg hname.1, if_neg hname.2]

theorem place_ne_root (a : Archive) (name : String) :
    ¬ (a.place name = [] ∨ a.place name = Place.root) := by
  rintro (heq | heq)
  · exact List.append_ne_nil_of_right_ne_nil _ (List.cons_ne_nil _ _) heq
  · have hmem : fileName name ∈ a.place name := List.mem_append_right _ List.mem_cons_self
    rw [heq, Place.root, List.mem_singleton] at hmem
    have hlength := congrArg String.length hmem
    rw [fileName, String.length_append] at hlength
    have hextension : extension.length = 4 := rfl
    have hslash : ("/" : String).length = 1 := rfl
    omega

theorem place_slot (a : Archive) (stem : String) : (a.slot stem).place = a.place stem := by
  rw [Path.place, slot, List.foldl_append, foldl_trunk]
  exact enter_fileName _ _

/-- The file of a name that leads to none in the directory is no deeper than the directory. -/
theorem length_place_le (hslash : '/' ∉ name.toList) (h : ¬ Inside name) :
    (a.file name).place.length ≤ a.directory.place.length := by
  rw [file, join_ofText hslash]
  by_cases hidle : Path.isIdle name = true
  · have hplace : Path.place ⟨a.directory.absolute, a.trunk ++ [name]⟩ = a.directory.place := by
      rw [Path.place, List.foldl_append, foldl_trunk]
      exact if_pos hidle
    exact hplace ▸ Path.length_place_withExtension_le _ extension
  · rw [Bool.not_eq_true] at hidle
    -- what is left is two dots, or a name that becomes them when its extension goes
    have hup : Path.withExtension ⟨a.directory.absolute, a.trunk ++ [name]⟩ extension =
        ⟨a.directory.absolute, a.trunk ++ [".."]⟩ := by
      rw [Path.withExtension]
      dsimp only
      rw [Path.trim_concat hidle, List.getLast?_concat]
      dsimp only
      rw [Path.isIdle, Bool.or_eq_false_iff, decide_eq_false_iff_not,
        decide_eq_false_iff_not] at hidle
      have hstem : stem name = "." := by
        by_contra hne
        exact h ⟨hslash, hidle.1, hne⟩
      split
      · next heq => rw [heq]
      · rw [stem] at hstem
        split at hstem
        · next hcut =>
          rw [hcut, hstem, List.dropLast_concat]
          exact if_pos ⟨rfl, rfl⟩
        · exact absurd hstem hidle.2
    rw [hup, Path.place, List.foldl_append, foldl_trunk]
    exact Path.length_enter_up_le _

end Archive

end StepLedger

import StepLedger.Disk
import StepLedger.Proofs.Except
import StepLedger.Proofs.FileSystem

/-!
# Files are exchanged as a whole

`Disk.replace` puts a text into the file of a path or leaves the disk as it is
(`Disk.replace_cases`): whichever operation is refused, nothing is left of the temporary file. The
failure is an outage (`StoreError.IsOutage`); a device that takes no text makes it one of composing
the text if that is too long for the buffer (`Disk.replace_of_write_refused`).
-/

namespace StepLedger

/-- The store is not there, or a device did not take what was written to it. -/
def StoreError.IsOutage (e : StoreError) : Prop :=
  e.kind = .storeUnavailable ∨ ∃ fault, e = .serialization (.unwritten fault)

theorem StoreError.IsOutage.kind {e : StoreError} (h : e.IsOutage) :
    e.kind = .storeUnavailable ∨ e.kind = .serialization :=
  h.imp_right fun ⟨_, he⟩ => he ▸ rfl

namespace Disk

open FileSystem

variable {d : Disk} {place : Place}

/-- The time and the operation that is out of order when a request arrives at a disk. -/
structure Condition where
  now : Calendar.Instant
  refused : Option Operation

theorem createTemporary_eq_ok {directory : Path} {temporary : Place} {begun : Disk}
    (h : d.createTemporary directory = .ok (temporary, begun)) :
    d.files.find? directory = some .directory ∧
      temporary = directory.place ++ [d.files.freshName] ∧
      begun = { d with files := d.files.put temporary (.file "") } := by
  obtain ⟨_, -, h⟩ := Except.bind_eq_ok.1 h
  obtain ⟨place, hresolve, h⟩ := Except.bind_eq_ok.1 h
  split at h
  · cases h
  · next hfault =>
    cases h
    refine ⟨?_, by rw [eq_place_of_resolve hresolve], rfl⟩
    rw [find?, hresolve]
    exact of_decide_eq_true (directoryFault?_eq_none_iff.1 hfault)

theorem flush_eq_ok {text : String} {written : Disk} (h : d.flush place text = .ok written) :
    written = { d with files := d.files.put place (.file text) } := by
  obtain ⟨_, -, h⟩ := Except.bind_eq_ok.1 h
  obtain ⟨_, -, h⟩ := Except.bind_eq_ok.1 h
  cases h
  rfl

theorem rename_eq_ok {target : Path} {renamed : Disk} (h : d.rename place target = .ok renamed) :
    ∃ goal node, d.files.target target = .ok goal ∧ d.files.node? place = some node ∧
      renamed = { d with files := (d.files.remove place).put goal node } := by
  obtain ⟨_, -, h⟩ := Except.bind_eq_ok.1 h
  obtain ⟨goal, hgoal, h⟩ := Except.bind_eq_ok.1 h
  split at h
  · cases h
  · next node hnode =>
    cases h
    exact ⟨goal, node, hgoal, hnode, rfl⟩

section

variable {temporary : Place} {target : Path} {forced : Bool} {text : String}

theorem fill_eq_ok {renamed : Disk} (h : d.fill temporary target forced text = .ok renamed) :
    ∃ written, d.flush temporary text = .ok written ∧
      written.rename temporary target = .ok renamed := by
  obtain ⟨_, -, h⟩ := Except.bind_eq_ok.1 h
  obtain ⟨written, hwritten, h⟩ := Except.bind_eq_ok.1 h
  obtain ⟨_, -, h⟩ := Except.bind_eq_ok.1 h
  exact ⟨written, Except.mapError_eq_ok.1 hwritten, Except.mapError_eq_ok.1 h⟩

/-- Every step of filling the file fails with an outage. -/
theorem isOutage_of_fill {e : StoreError} (h : d.fill temporary target forced text = .error e) :
    e.IsOutage := by
  obtain h | ⟨_, -, h⟩ := Except.bind_eq_error.1 h
  · obtain ⟨fault, -, rfl⟩ := Except.mapError_eq_error.1 h
    exact .inr ⟨fault, rfl⟩
  obtain h | ⟨_, -, h⟩ := Except.bind_eq_error.1 h
  · obtain ⟨_, -, rfl⟩ := Except.mapError_eq_error.1 h
    exact .inl rfl
  obtain h | ⟨_, -, h⟩ := Except.bind_eq_error.1 h
  all_goals
    obtain ⟨_, -, rfl⟩ := Except.mapError_eq_error.1 h
    exact .inl rfl

end

/-- A text is put into the file of a path, or the disk is as it was. -/
theorem replace_cases (d : Disk) (directory target : Path) (forced : Bool) (text : String) :
    (∃ e, e.IsOutage ∧ d.replace directory target forced text = (.error e, d)) ∨
      ∃ goal, d.files.find? directory = some .directory ∧ d.files.target target = .ok goal ∧
        d.replace directory target forced text =
          (.ok (), { d with files := d.files.put goal (.file text) }) := by
  rw [replace]
  split
  · exact .inl ⟨_, .inl rfl, rfl⟩
  · next temporary begun hbegun =>
    obtain ⟨hdirectory, rfl, rfl⟩ := createTemporary_eq_ok hbegun
    have hnew : ∀ entry ∈ d.files.nodes, entry.1 ≠ directory.place ++ [d.files.freshName] :=
      fun _ => ne_append_freshName
    split
    · next e hfill =>
      refine .inl ⟨e, isOutage_of_fill hfill, ?_⟩
      rw [discard, remove_put hnew]
    · next renamed hfill =>
      obtain ⟨written, hwritten, hrenamed⟩ := fill_eq_ok hfill
      obtain rfl := flush_eq_ok hwritten
      obtain ⟨goal, node, hgoal, hnode, rfl⟩ := rename_eq_ok hrenamed
      dsimp only at hgoal hnode
      rw [put_put] at hgoal hnode
      rw [node?_put_freshName] at hnode
      cases hnode
      refine .inr ⟨goal, hdirectory, target_of_put (isDirectory_freshName _) hgoal, ?_⟩
      dsimp only
      rw [put_put, remove_put hnew]

theorem check_of_ne {operation : Operation} (h : d.refused ≠ some operation) :
    d.check operation = .ok () := if_neg h

theorem createTemporary_of_check (hcheck : d.check .create = .ok ()) {directory : Path}
    (hdirectory : d.files.find? directory = some .directory) :
    d.createTemporary directory = .ok (directory.place ++ [d.files.freshName],
      { d with files := d.files.put (directory.place ++ [d.files.freshName]) (.file "") }) := by
  obtain ⟨hfault, hwalk, hplace⟩ := find?_eq_directory_iff.1 hdirectory
  have hresolve : d.files.resolve directory = .ok directory.place := by
    rw [resolve, hfault]
    exact hwalk
  rw [createTemporary, hcheck, Except.ok_bind, hresolve, Except.ok_bind,
    directoryFault?_eq_none_iff.2 hplace]
  rfl

section

variable {target : Path} {forced : Bool} {text : String} (hrefused : d.refused = some .write)
include hrefused

theorem fill_of_write_refused {temporary : Place} : d.fill temporary target forced text =
    .error (if bufferSize < text.utf8ByteSize then .serialization (.unwritten .noSpace)
      else .storeUnavailable (.flush .noSpace)) := by
  have hcheck : d.check .write = .error .noSpace := if_pos hrefused
  by_cases hlong : bufferSize < text.utf8ByteSize
  · have hspill : d.spill text = .error .noSpace := by
      rw [spill, hcheck]
      exact if_pos hlong
    rw [fill, hspill, if_pos hlong]
    rfl
  · have hspill : d.spill text = .ok () := by
      rw [spill, hcheck]
      exact if_neg hlong
    rw [fill, hspill, if_neg hlong, flush, hcheck]
    rfl

/-- A device that takes no text fails while the text is composed if the buffer cannot hold it, and
when the buffer is flushed otherwise. -/
theorem replace_of_write_refused {directory : Path}
    (hdirectory : d.files.find? directory = some .directory) :
    d.replace directory target forced text =
      (.error (if bufferSize < text.utf8ByteSize then .serialization (.unwritten .noSpace)
        else .storeUnavailable (.flush .noSpace)), d) := by
  let temporary := directory.place ++ [d.files.freshName]
  let begun : Disk := { d with files := d.files.put temporary (.file "") }
  have hbegun : d.createTemporary directory = .ok (temporary, begun) :=
    createTemporary_of_check (check_of_ne (by simp [hrefused])) hdirectory
  rw [replace, hbegun]
  dsimp only
  rw [fill_of_write_refused (d := begun) hrefused]
  dsimp only
  rw [discard, remove_put fun _ => ne_append_freshName]

end

/-! ## Disks that refuse nothing -/

section Unrefused

variable (hrefused : d.refused = none)
include hrefused

theorem check_of_unrefused (operation : Operation) : d.check operation = .ok () :=
  check_of_ne (by simp [hrefused])

theorem flush_of_unrefused (text : String) :
    d.flush place text = .ok { d with files := d.files.put place (.file text) } := by
  rw [flush, check_of_unrefused hrefused, check_of_unrefused hrefused]
  rfl

theorem rename_of_unrefused {target : Path} {goal : Place} {node : Node}
    (hgoal : d.files.target target = .ok goal) (hnode : d.files.node? place = some node) :
    d.rename place target = .ok { d with files := (d.files.remove place).put goal node } := by
  rw [rename, check_of_unrefused hrefused, Except.ok_bind, hgoal, Except.ok_bind, hnode]
  rfl

theorem fill_of_unrefused {temporary : Place} {target : Path} (forced : Bool) (text : String) :
    d.fill temporary target forced text =
      ({ d with files := d.files.put temporary (.file text) }.rename temporary target).mapError
        fun fault => .storeUnavailable (.rename fault) := by
  let written : Disk := { d with files := d.files.put temporary (.file text) }
  have hspill : d.spill text = .ok () := by
    rw [spill, check_of_unrefused hrefused]
  have hsync : written.sync forced = .ok () := by
    rw [sync, check_of_unrefused (d := written) hrefused, ite_self]
  rw [fill, hspill, flush_of_unrefused hrefused]
  simp only [Except.mapError_ok, Except.ok_bind]
  rw [hsync]
  rfl

/-- A text is put into a file that has a place. -/
theorem replace_of_unrefused {directory target : Path} {goal : Place}
    (hdirectory : d.files.find? directory = some .directory) (hgoal : d.files.target target = .ok goal)
    (forced : Bool) (text : String) : d.replace directory target forced text =
      (.ok (), { d with files := d.files.put goal (.file text) }) := by
  let temporary := directory.place ++ [d.files.freshName]
  have hnew : ∀ entry ∈ d.files.nodes, entry.1 ≠ temporary := fun _ => ne_append_freshName
  let begun : Disk := { d with files := d.files.put temporary (.file "") }
  let written : Disk := { d with files := d.files.put temporary (.file text) }
  have hbegun : d.createTemporary directory = .ok (temporary, begun) :=
    createTemporary_of_check (check_of_unrefused hrefused .create) hdirectory
  have hrenamed : written.rename temporary target =
      .ok { d with files := d.files.put goal (.file text) } := by
    rw [rename_of_unrefused (d := written) hrefused (target_put (isDirectory_freshName _) hgoal)
      (node?_put_freshName _), remove_put hnew]
  have hfill : begun.fill temporary target forced text =
      .ok { d with files := d.files.put goal (.file text) } := by
    rw [fill_of_unrefused (d := begun) hrefused, put_put, hrenamed, Except.mapError_ok]
  rw [replace, hbegun]
  dsimp only
  rw [hfill]

end Unrefused

end Disk

end StepLedger

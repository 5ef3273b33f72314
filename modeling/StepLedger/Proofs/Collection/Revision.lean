import StepLedger.Proofs.Collection.Agreement
import StepLedger.Proofs.Collection.Twin

/-!
# What the revision tells

A call moves the revision by the number of places at which the documents after it differ from those
before it (`differences`, `revision_after`), whether the call succeeds, fails or stops midway. These are
the documents that it inserts or modifies (`revision_after_effect`). So the revision is that of before
exactly if the documents are equal to those of before (`revision_tells_changes`), and along any calls it
only stays if none of them changed anything (`equal_of_revision_along`).
-/

namespace StepLedger.Collection

variable {c c' : Collection} {d : Document} {ds es : List Document} {f : Filter} {u : Update}
  {how : FindAndModify} {i : Nat} {before after : Document}

/-- At how many places documents differ from others. What has no counterpart differs. -/
def differences : List Document → List Document → Nat
  | [], es => es.length
  | ds, [] => ds.length
  | d :: ds, e :: es => (if e.same d then 0 else 1) + differences ds es

/-- How many documents a call modifies, as `Collection.updateFirst` answers; a batch modifies none. -/
def modified (c : Collection) : Call → Nat
  | .insert _ | .insertMany _ => 0
  | .updateFirst f u | .findAndModify f u _ =>
    match c.updateFirst f u with
    | .ok (result, _) => result.modified
    | .error _ => 0

/-! ## Counting differences -/

theorem differences_eq_zero_iff : differences ds es = 0 ↔ List.Forall₂ Document.Equal ds es := by
  induction ds generalizing es with
  | nil => cases es <;> simp [differences]
  | cons d ds ih =>
    cases es with
    | nil => simp [differences]
    | cons e es =>
      have hequal : e.same d = true ↔ d.Equal e := ⟨Document.Equal.symm, Document.Equal.symm⟩
      rw [differences, Nat.add_eq_zero_iff, ih, List.forall₂_cons, ← hequal]
      simp

theorem differences_self (ds : List Document) : differences ds ds = 0 :=
  differences_eq_zero_iff.2 (List.forall₂_same.2 fun d _ => .refl d)

theorem differences_append (ds es : List Document) : differences ds (ds ++ es) = es.length := by
  induction ds with
  | nil => rw [List.nil_append, differences]
  | cons d ds ih => rw [List.cons_append, differences, ih, if_pos d.same_refl, Nat.zero_add]

theorem differences_set (hi : ds[i]? = some before) :
    differences ds (ds.set i after) = if after.same before then 0 else 1 := by
  induction ds generalizing i with
  | nil => cases hi
  | cons d ds ih =>
    cases i with
    | zero =>
      obtain rfl : d = before := Option.some.inj hi
      rw [List.set_cons_zero, differences, differences_self, Nat.add_zero]
    | succ i => rw [List.set_cons_succ, differences, ih hi, if_pos d.same_refl, Nat.zero_add]

/-! ## One call -/

theorem Went.revision_eq (h : Went c ds c') :
    c'.revision = c.revision + differences c.documents c'.documents := by
  cases h with
  | same => rw [differences_self, Nat.add_zero]
  | @replaced i before after here keyed =>
    show (if after.same before then c.revision else c.revision + 1) =
      c.revision + differences c.documents (c.documents.set i after)
    rw [differences_set here]
    split <;> rfl
  | added documents revision => rw [documents, differences_append, revision]

/-- A call that adds one document at most makes one difference at most. -/
theorem Went.differences_le (h : Went c ds c') (hds : ds.length ≤ 1) :
    differences c.documents c'.documents ≤ 1 := by
  cases h with
  | same =>
    rw [differences_self]
    exact Nat.zero_le 1
  | @replaced i before after here keyed =>
    show differences c.documents (c.documents.set i after) ≤ 1
    rw [differences_set here]
    split <;> decide
  | added documents => rwa [documents, differences_append]

/-- A call adds as much to the revision as it makes a difference to the documents. -/
theorem revision_after (c : Collection) (call : Call) : (c.after call).revision =
    c.revision + differences c.documents (c.after call).documents := (c.went call).revision_eq

theorem revision_le_after (c : Collection) (call : Call) : c.revision ≤ (c.after call).revision := by
  rw [revision_after]
  exact Nat.le_add_right _ _

theorem revision_after_eq_iff {call : Call} : (c.after call).revision = c.revision ↔
    List.Forall₂ Document.Equal c.documents (c.after call).documents := by
  rw [revision_after, ← differences_eq_zero_iff]
  exact Nat.add_eq_left

theorem length_admitted_le (c : Collection) (d : Document) : (c.admitted d).length ≤ 1 := by
  rw [admitted]
  split <;> simp

/-- Only a batch adds more than one document. -/
theorem length_inserted_le {call : Call} (hcall : ∀ ds, call ≠ .insertMany ds) :
    (c.inserted call).length ≤ 1 := by
  cases call with
  | insert d => exact c.length_admitted_le d
  | insertMany ds => exact absurd rfl (hcall ds)
  | updateFirst f u => exact Nat.zero_le 1
  | findAndModify f u how =>
    rw [inserted]
    split
    · exact c.length_admitted_le _
    · exact Nat.zero_le 1

/-- A call that is no batch moves the revision by one if it changes anything. -/
theorem revision_after_of_changed {call : Call} (hcall : ∀ ds, call ≠ .insertMany ds)
    (hchanged : ¬ List.Forall₂ Document.Equal c.documents (c.after call).documents) :
    (c.after call).revision = c.revision + 1 := by
  have hle := (c.went call).differences_le (length_inserted_le hcall)
  have hne := mt differences_eq_zero_iff.1 hchanged
  rw [revision_after, Nat.le_antisymm hle (Nat.pos_of_ne_zero hne)]

/-- A batch moves the revision by the number of its documents that are stored, which it returns or
reports. -/
theorem revision_after_insertMany (c : Collection) (ds : List Document) :
    ∃ stored, stored <+: ds ∧ (c.after (.insertMany ds)).documents = c.documents ++ stored ∧
      (c.after (.insertMany ds)).revision = c.revision + stored.length ∧
      ((c.insertMany ds).1 = .ok stored.length ∨
        ∃ source, (c.insertMany ds).1 = .error (.bulkWrite stored.length source)) := by
  obtain ⟨hall, hdocuments, hrevision⟩ | ⟨k, source, hfailed, hk, hdocuments, hrevision⟩ :=
    c.insertMany_cases ds
  · exact ⟨ds, List.prefix_rfl, hdocuments, hrevision, .inl hall⟩
  · have hlength : (ds.take k).length = k := List.length_take_of_le (Nat.le_of_lt hk)
    exact ⟨ds.take k, List.take_prefix k ds, hdocuments, by rw [hlength]; exact hrevision,
      .inr ⟨source, by rw [hlength]; exact hfailed⟩⟩

/-! ## What a call did -/

theorem revision_after_insert (c : Collection) (d : Document) :
    (c.after (.insert d)).revision = c.revision + (c.admitted d).length := by
  rw [admitted]
  cases h : c.insert d with
  | error e =>
    rw [after_insert_of_error h]
    rfl
  | ok c' =>
    rw [after_insert_of_ok h]
    obtain ⟨key, -, -, rfl⟩ := insert_eq_ok h
    rfl

theorem revision_after_updateFirst (c : Collection) (f : Filter) (u : Update) :
    (c.after (.updateFirst f u)).revision = c.revision + c.modified (.updateFirst f u) := by
  rw [modified]
  cases h : c.updateFirst f u with
  | error e =>
    rw [after_updateFirst_of_error h]
    rfl
  | ok answer =>
    obtain ⟨result, c'⟩ := answer
    rw [after_updateFirst_of_ok h]
    obtain ⟨-, rfl, rfl⟩ | ⟨i, before, after, -, -, rfl, rfl⟩ := updateFirst_eq_ok h
    · rfl
    · dsimp only [replaceAt]
      split <;> rfl

/-- An upsert that finds no document is an insertion of what the update creates, if it can be
created. -/
theorem revision_after_upsert (hnone : c.first? f = none) (hup : how.upsert = true) :
    (c.after (.findAndModify f u how)).revision =
      c.revision + (c.inserted (.findAndModify f u how)).length := by
  rw [inserted, hnone, hup]
  cases hcreate : u.create f with
  | error e =>
    rw [after_findAndModify_of_error (findAndModify_uncreated hnone hup hcreate)]
    rfl
  | ok d =>
    rw [after_upsert hnone hup hcreate]
    exact c.revision_after_insert d

theorem Selected.inserted_eq (h : c.Selected f i before) :
    c.inserted (.findAndModify f u how) = [] := by
  rw [inserted, h.first?_eq]

/-- The revision moves by the number of documents that a call inserts or modifies. -/
theorem revision_after_effect (c : Collection) (call : Call) :
    (c.after call).revision = c.revision + (c.inserted call).length + c.modified call := by
  cases call with
  | insert d => exact c.revision_after_insert d
  | insertMany ds =>
    obtain ⟨hall, -, hrevision⟩ | ⟨k, source, hfailed, hk, -, hrevision⟩ := c.insertMany_cases ds
    · rw [inserted, hall]
      exact hrevision
    · rw [inserted, hfailed]
      dsimp only
      rw [List.length_take_of_le (Nat.le_of_lt hk)]
      exact hrevision
  | updateFirst f u => exact c.revision_after_updateFirst f u
  | findAndModify f u how =>
    by_cases hselected : ∃ i before, c.Selected f i before
    · rw [after_findAndModify (.inl hselected)]
      obtain ⟨i, before, hselected⟩ := hselected
      rw [hselected.inserted_eq]
      exact c.revision_after_updateFirst f u
    · have hnone : ∀ i d, ¬ c.Selected f i d := fun i d hd => hselected ⟨i, d, hd⟩
      have hmodified : c.modified (.findAndModify f u how) = 0 := by
        rw [modified, updateFirst_of_not_selected hnone]
      rw [hmodified]
      cases hup : how.upsert with
      | true => exact revision_after_upsert (first?_of_not_selected hnone) hup
      | false =>
        have hinserted : c.inserted (.findAndModify f u how) = [] := by
          rw [inserted, first?_of_not_selected hnone, hup]
        rw [after_findAndModify (.inr hup), hinserted, c.revision_after_updateFirst f u, modified,
          updateFirst_of_not_selected hnone]
        rfl

/-! ## Calls one after the other -/

theorem revision_le_along (c : Collection) (calls : List Call) :
    c.revision ≤ (c.along calls).revision := by
  induction calls generalizing c with
  | nil => exact Nat.le_refl _
  | cons call calls ih => exact Nat.le_trans (c.revision_le_after call) (ih (c.after call))

/-- If calls have left the revision as it was, every one of them has left equal documents. -/
theorem equal_of_revision_along {calls : List Call} (h : (c.along calls).revision = c.revision) :
    List.Forall₂ Document.Equal c.documents (c.along calls).documents := by
  induction calls generalizing c with
  | nil => exact List.forall₂_same.2 fun d _ => .refl d
  | cons call calls ih =>
    have hrest : (c.after call).revision ≤ (c.along (call :: calls)).revision :=
      (c.after call).revision_le_along calls
    have hfirst : (c.after call).revision = c.revision :=
      Nat.le_antisymm (h ▸ hrest) (c.revision_le_after call)
    exact forall₂_trans (fun _ _ _ => Document.Equal.trans) (revision_after_eq_iff.1 hfirst)
      (ih (h.trans hfirst.symm))

/-- Whatever call is made, and whether it succeeds or not: the revision never decreases, it stays
exactly if the documents stay equal, and it moves by the number of documents that are inserted or
modified. These are one at most, and of a batch those that are stored before it is over. To find or to
count documents changes nothing. -/
theorem revision_tells_changes (c : Collection) (call : Call) :
    c.revision ≤ (c.after call).revision ∧
    ((c.after call).revision = c.revision ↔
      List.Forall₂ Document.Equal c.documents (c.after call).documents) ∧
    (c.after call).revision = c.revision + (c.inserted call).length + c.modified call ∧
    (match call with
      | .insertMany ds => ∃ stored, stored <+: ds ∧
          (c.after (.insertMany ds)).documents = c.documents ++ stored ∧
          (c.after (.insertMany ds)).revision = c.revision + stored.length ∧
          ((c.insertMany ds).1 = .ok stored.length ∨
            ∃ source, (c.insertMany ds).1 = .error (.bulkWrite stored.length source))
      | .insert _ | .updateFirst .. | .findAndModify .. =>
        ¬ List.Forall₂ Document.Equal c.documents (c.after call).documents →
          (c.after call).revision = c.revision + 1) ∧
    ∀ (s : Store) (name : String) (f : Filter),
      (s.answer (.find name f)).2 = s ∧ (s.answer (.count name f)).2 = s := by
  refine ⟨c.revision_le_after call, revision_after_eq_iff, c.revision_after_effect call, ?_,
    fun s name f => ⟨s.snd_find name f, s.snd_count name f⟩⟩
  cases call with
  | insertMany ds => exact c.revision_after_insertMany ds
  | insert | updateFirst | findAndModify => exact revision_after_of_changed nofun

/-- A batch that stops midway has moved the revision, and an update that puts what is there does not. -/
example : ((empty "pages").along [.insertMany [.ofList [("id", .null)], .ofList [("id", .null)]],
    .updateFirst .all (Update.empty.andSet "v" .null),
    .updateFirst .all (Update.empty.andSet "v" .null)]).revision = 2 := by
  decide +kernel

end StepLedger.Collection

import StepLedger.Proofs.Document.Fields
import StepLedger.Proofs.Except

/-!
# What updates do to documents

A field that nothing is added to is set or stays as it is (`get?_of_apply`), and no update changes
the primary key (`get?_id_of_apply`). A sum of words is found if it is a word
(`addChecked_eq_some_iff`). The other lemmas give the outcome of the updates that are in use: setting
fields only (`apply_set`), adding to one field (`apply_increment`), and fields for a created document
only, which leave an existing one as it is (`apply_setOnInsert`).
-/

namespace StepLedger.Update

/-- The update is refused, or its amounts are added after its fields are set. -/
theorem apply_eq (u : Update) (d : Document) :
    u.apply d = if u.touchesId then .error (.invalidArgument .keyUpdate)
      else u.inc.foldlM (fun d field => increment d field.1 field.2) (d.overlay u.set) := by
  unfold apply
  split <;> rfl

/-! ## Adding to words -/

/-- A sum is found if it is a word. -/
theorem addChecked_eq_some_iff {a b c : Int64} :
    addChecked a b = some c ↔ c.toInt = a.toInt + b.toInt := by
  have hlower := c.le_toInt
  have hupper := c.toInt_lt
  simp only [addChecked]
  constructor
  · intro h
    split at h
    · next hin => cases h; exact Int64.toInt_ofInt_of_le hin.1 hin.2
    · cases h
  · intro h
    rw [if_pos (by omega), ← h, Int64.ofInt_toInt]

/-- No sum is found if it is too large or too small. -/
theorem addChecked_eq_none_iff {a b : Int64} :
    addChecked a b = none ↔ a.toInt + b.toInt < -9223372036854775808 ∨
      9223372036854775808 ≤ a.toInt + b.toInt := by
  simp only [addChecked]
  split <;> simp <;> omega

theorem ne_of_addChecked_one {v next : Int64} (h : addChecked v 1 = some next) : next ≠ v := by
  rintro rfl
  have := addChecked_eq_some_iff.1 h
  have hone : (1 : Int64).toInt = 1 := rfl
  omega

/-- To add one to a field that holds a word. -/
theorem increment_one {d : Document} {field : String} {v : Int64}
    (hv : d.get? field = some (.number (.ofInt64 v))) :
    increment d field 1 = match addChecked v 1 with
      | some next => .ok (d.set field (.ofInt64 next))
      | none => .error (.invalidArgument (.overflow field)) := by
  have hlt : v.toInt < 9223372036854775808 := v.toInt_lt
  have hcurrent : current d field = .ok v := by
    simp [current, hv, Json.Number.toInt64?, Json.Number.ofInt64, hlt]
  rw [increment, hcurrent]
  cases h : addChecked v 1 with
  | none => simp [h]; rfl
  | some next => simp [h]; rfl

/-! ## Fields and the primary key -/

theorem get?_of_increment {d d' : Document} {field name : String} {amount : Int64}
    (h : increment d field amount = .ok d') (hne : name ≠ field) : d'.get? name = d.get? name := by
  obtain ⟨n, -, h⟩ := Except.bind_eq_ok.1 h
  split at h
  · cases h; exact Document.get?_set_ne d hne _
  · cases h

theorem get?_of_foldlM_increment {fields : List (String × Int64)} {d d' : Document} {name : String}
    (h : fields.foldlM (fun d field => increment d field.1 field.2) d = .ok d')
    (hne : ∀ field ∈ fields, name ≠ field.1) : d'.get? name = d.get? name :=
  Except.foldlM_induction (motive := fun d' => d'.get? name = d.get? name) h rfl
    fun field hfield _ _ ih hi => (get?_of_increment hi (hne field hfield)).trans ih

/-- A field that nothing is added to is set or stays as it is. -/
theorem get?_of_apply {u : Update} {d d' : Document} {name : String} (h : u.apply d = .ok d')
    (hname : name ∉ u.inc.map (·.1)) : d'.get? name = (u.set.get? name).or (d.get? name) := by
  rw [apply_eq] at h
  split at h
  · cases h
  · have hne : ∀ field ∈ u.inc, name ≠ field.1 :=
      fun field hm heq => hname (List.mem_map.2 ⟨field, hm, heq.symm⟩)
    rw [get?_of_foldlM_increment h hne, Document.get?_overlay]

/-- An update that succeeds leaves the primary key as it is. -/
theorem get?_id_of_apply {u : Update} {d d' : Document} (h : u.apply d = .ok d') :
    d'.get? idField = d.get? idField := by
  have htouch : u.touchesId = false := by
    cases htouch : u.touchesId with
    | false => rfl
    | true =>
      rw [apply_eq, if_pos htouch] at h
      cases h
  simp only [touchesId, Bool.or_eq_false_iff, List.any_eq_false, decide_eq_true_eq,
    Option.isSome_eq_false_iff, Option.isNone_iff_eq_none] at htouch
  obtain ⟨⟨hset, -⟩, hinc⟩ := htouch
  have hname : idField ∉ u.inc.map (·.1) := fun hm => by
    obtain ⟨field, hfield, heq⟩ := List.mem_map.1 hm
    exact hinc field hfield heq
  rw [get?_of_apply h hname, hset, Option.none_or]

/-- A document created for the filter of a key has that key. -/
theorem get?_id_of_create {u : Update} {id : Json} {d : Document}
    (h : u.create (.byId id) = .ok d) : d.get? idField = some id.value := by
  unfold create at h
  split at h
  · cases h
  · next htouch =>
    simp only [touchesId, Bool.or_eq_true, not_or, Option.not_isSome_iff_eq_none] at htouch
    rw [get?_id_of_apply h, Document.get?_overlay, htouch.1.2, Option.none_or,
      Document.get?_ofList (by simp [Filter.byId, Filter.eq, Filter.and, Filter.all])]
    simp [Filter.byId, Filter.eq, Filter.and, Filter.all, Entries.find?]

/-! ## The updates in use -/

/-- An update that only sets fields sets them. -/
theorem apply_set {set : Document} (hset : set.get? idField = none) (d : Document) :
    ({ empty with set } : Update).apply d = .ok (d.overlay set) := by
  rw [apply_eq, if_neg (by simp [touchesId, hset, empty])]
  rfl

/-- An update that sets one field other than the key sets it. -/
theorem apply_andSet {field : String} (hne : field ≠ idField) (value : Json) (d : Document) :
    (empty.andSet field value).apply d = .ok (d.set field value) := by
  have hid : (Document.empty.set field value).get? idField = none := by
    rw [Document.get?_set_ne _ hne.symm, Document.get?_empty]
  have hset : d.overlay (Document.empty.set field value) = d.set field value := by
    refine Document.ext_get? fun name => ?_
    rw [Document.get?_overlay, Document.get?_set, Document.get?_set, Document.get?_empty]
    split <;> simp
  rw [← hset]
  exact apply_set hid d

/-- An update that sets something says something. -/
theorem isEmpty_eq_false {u : Update} {name : String} {value : Json.Value}
    (h : u.set.get? name = some value) : u.isEmpty = false := by
  have hfields : u.set.fields.isEmpty = false := by
    rw [Document.get?] at h
    cases hfields : u.set.fields with
    | nil => rw [hfields] at h; cases h
    | cons => rfl
  simp [isEmpty, hfields]

/-- An update that adds to one field other than the key adds to it. -/
theorem apply_increment {field : String} (hne : field ≠ idField) (amount : Int64) (d : Document) :
    (empty.andInc field amount).apply d = increment d field amount := by
  rw [apply_eq, if_neg (by simp [touchesId, andInc, empty, hne])]
  simp [andInc, empty]

/-- Fields for a created document leave an existing one as it is. -/
theorem apply_setOnInsert {fields : Document} (hid : fields.get? idField = none) (d : Document) :
    ({ empty with setOnInsert := fields } : Update).apply d = .ok d := by
  rw [apply_eq, if_neg (by simp [touchesId, hid, empty])]
  simp [empty, pure, Except.pure]

end StepLedger.Update

import StepLedger.Proofs.Collection.History
import StepLedger.Proofs.Document.Keys

/-!
# The primary key

A document is refused exactly if one with its very key is there, so that no two documents of a
collection have one key (`primary_key_is_unique`). Filters take two keys for one also if they differ in
the sign of a zero of binary64, and of those there may be two documents (`zeros_are_two_keys`).
-/

namespace StepLedger.Collection

variable {c : Collection} {d : Document} {id : Json.Value}

/-! ## What is refused -/

/-- The keys in use are those of the documents. -/
theorem WellFormed.keyText_mem_keys (h : c.WellFormed) :
    Document.keyText id ∈ c.keys ↔ ∃ e ∈ c.documents, e.get? idField = some id := by
  simp only [h.consistent.keys, Document.key?_eq_some_iff]

/-- Inserting fails if a document with the key is there, and for no other reason. -/
theorem WellFormed.insert_eq_error_iff (h : c.WellFormed) (hid : d.get? idField = some id)
    {error : StoreError} : c.insert d = .error error ↔
      error = .duplicateKey c.name (Document.keyText id) ∧
        ∃ e ∈ c.documents, e.get? idField = some id := by
  rw [← h.keyText_mem_keys, Collection.insert, Document.key?_of_get? hid]
  by_cases hmem : Document.keyText id ∈ c.keys
  · simp [hmem, eq_comm]
  · simp [hmem]

theorem WellFormed.insert_of_unused (h : c.WellFormed) (hid : d.get? idField = some id)
    (hunused : ∀ e ∈ c.documents, e.get? idField ≠ some id) :
    ∃ c', c.insert d = .ok c' ∧ c'.documents = c.documents ++ [d] := by
  refine ⟨_, insert_of_key (Document.key?_of_get? hid) fun hmem => ?_, rfl⟩
  obtain ⟨e, he, hsame⟩ := h.keyText_mem_keys.1 hmem
  exact hunused e he hsame

theorem WellFormed.exists_insert_iff (h : c.WellFormed) (hid : d.get? idField = some id) :
    (∃ c', c.insert d = .ok c') ↔ ∀ e ∈ c.documents, e.get? idField ≠ some id := by
  refine ⟨fun ⟨c', hinsert⟩ e he hsame => ?_, fun hunused => ?_⟩
  · rw [(h.insert_eq_error_iff hid).2 ⟨rfl, e, he, hsame⟩] at hinsert
    cases hinsert
  · obtain ⟨c', hinsert, -⟩ := h.insert_of_unused hid hunused
    exact ⟨c', hinsert⟩

/-! ## What is found -/

/-- No two of the documents that are found have one key. -/
theorem WellFormed.nodup_ids_find (h : c.WellFormed) (f : Filter) : (ids (c.find f)).Nodup := by
  have hkeys : (c.documents.map Document.key?).Nodup := h.nodup_documents
  have hids : (ids c.documents).Nodup := by
    rw [show Document.key? = Option.map Document.keyText ∘ (·.get? idField) from rfl,
      ← List.map_map] at hkeys
    exact hkeys.of_map _
  exact hids.sublist (List.filter_sublist.map _)

/-- If only one key equals the one asked for, one document at most has it. -/
theorem WellFormed.length_find_byId_le (h : c.WellFormed) {v : Json} (hv : v.value.zeroless = true) :
    (c.find (.byId v)).length ≤ 1 := by
  have hkey : ∀ key ∈ ids (c.find (.byId v)), key = some v.value := by
    intro key hmem
    obtain ⟨e, he, rfl⟩ := List.mem_map.1 hmem
    obtain ⟨hmem, hselected⟩ := List.mem_filter.1 he
    obtain ⟨text, -, htext⟩ := h.exists_key hmem
    obtain ⟨value, hvalue, hsame⟩ :=
      same_of_selects (Filter.idValue?_byId v) hselected (by rw [htext]; nofun)
    rw [hvalue, Json.Value.eq_of_same hv hsame]
  have hnodup := h.nodup_ids_find (.byId v)
  rw [List.eq_replicate_of_mem hkey, List.nodup_replicate, ids, List.length_map] at hnodup
  exact hnodup

/-- A document with a primary key is refused exactly if a document with that very key is there, and it
is added at the end otherwise. If no zero of binary64 is in the key, it is refused exactly if the key
of a document there equals it. No two of the documents found for a key have one key, and for a key
without such a zero one document at most is found. -/
theorem primary_key_is_unique (hc : c.Reachable) (hid : d.get? idField = some id) :
    (∀ error, c.insert d = .error error ↔
      error = .duplicateKey c.name (Document.keyText id) ∧
        ∃ e ∈ c.documents, e.get? idField = some id) ∧
    ((∀ e ∈ c.documents, e.get? idField ≠ some id) →
      ∃ c', c.insert d = .ok c' ∧ c'.documents = c.documents ++ [d]) ∧
    (id.zeroless = true →
      ((∃ error, c.insert d = .error error) ↔
        ∃ e ∈ c.documents, ∃ value, e.get? idField = some value ∧ value.same id = true)) ∧
    ∀ v : Json, (ids (c.find (.byId v))).Nodup ∧
      (v.value.zeroless = true → (c.find (.byId v)).length ≤ 1) := by
  have hw := hc.wellFormed
  refine ⟨fun error => hw.insert_eq_error_iff hid, hw.insert_of_unused hid, fun hzero => ?_,
    fun v => ⟨hw.nodup_ids_find _, hw.length_find_byId_le⟩⟩
  simp only [hw.insert_eq_error_iff hid, exists_eq_left]
  constructor
  · rintro ⟨e, he, hsame⟩
    exact ⟨e, he, id, hsame, Json.Value.same_refl id⟩
  · rintro ⟨e, he, value, hvalue, hsame⟩
    exact ⟨e, he, by rw [hvalue, Json.Value.eq_of_same hzero hsame]⟩

/-- The number a half. -/
def half : Binary64 := (Binary64.nearest? false Binary64.unitsPerOne 2).getD (.zero false)

/-- A key of several parts. -/
def compound : Json where
  value := .array [.number (.float half), .object [("page", .string "x")], .null]
  ordered := by simp [Json.Value.Ordered, Json.Value.OrderedItems, Json.Value.OrderedFields,
    Entries.Ascending]

/-- A document with that key. -/
def compounded : Document := .ofList [("id", compound), ("first", .bool true)]

/-- The collection of that document. -/
def ofCompound : Collection := ⟨"pages", [compounded], [Document.keyText compound.value], 1⟩

theorem reachable_ofCompound : ofCompound.Reachable :=
  .insert (.empty "pages") (insert_of_key (Document.key?_of_get? rfl) List.not_mem_nil)

/-- Another document with the key is refused, and the first one is found. -/
theorem compound_key_is_unique : ofCompound.Reachable ∧ compound.value.zeroless = true ∧
    (Document.ofList [("id", compound)]).get? idField = some compound.value ∧
    ofCompound.insert (.ofList [("id", compound)]) =
      .error (.duplicateKey "pages" "[0.5,\x7b\"page\":\"x\"\x7d,null]") ∧
    (∃ e ∈ ofCompound.documents, ∃ value, e.get? idField = some value ∧
      value.same compound.value = true) ∧
    (ofCompound.find (.byId compound)).length ≤ 1 := by
  have hid : (Document.ofList [("id", compound)]).get? idField = some compound.value := rfl
  have hzero : compound.value.zeroless = true := by decide +kernel
  obtain ⟨hrefused, -, hequal, hfound⟩ := primary_key_is_unique reachable_ofCompound hid
  have htext : Document.keyText compound.value = "[0.5,\x7b\"page\":\"x\"\x7d,null]" := by
    decide +kernel
  have herror := (hrefused _).2 ⟨rfl, compounded, List.mem_singleton_self _, rfl⟩
  refine ⟨reachable_ofCompound, hzero, hid, ?_, (hequal hzero).1 ⟨_, herror⟩, (hfound compound).2 hzero⟩
  rw [herror, htext]
  rfl

/-- The zeros of either sign are equal, and are the keys of two documents. -/
theorem zeros_are_two_keys : ofZero.Reachable ∧
    (Document.ofList [("id", signedZero true)]).get? idField = some (signedZero true).value ∧
    (∃ e ∈ ofZero.documents, ∃ value, e.get? idField = some value ∧
      value.same (signedZero true).value = true) ∧
    ∃ c, ofZero.insert (.ofList [("id", signedZero true)]) = .ok c ∧ c.Reachable ∧
      (c.find (.byId (signedZero false))).length = 2 := by
  have hinsert : ofZero.insert (.ofList [("id", signedZero true)]) = .ok _ := rfl
  exact ⟨reachable_ofZero, rfl, ⟨_, List.mem_singleton_self _, _, rfl, rfl⟩, _, hinsert,
    reachable_ofZero.insert hinsert, rfl⟩

end StepLedger.Collection

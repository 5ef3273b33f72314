import StepLedger.Proofs.Step.Stored

/-!
# The ledger of a site

A `Ledger` says what a store has to show for a site: the last id that was handed out, and the records
of the steps in the order in which they were saved, each under an id that was handed out. Requests
that only look, and those about other sequences, are `Quiet`: they keep the ledger. The others hand
out an id (`Ledger.of_advances`), insert records (`Ledger.insertOne`, `Ledger.insertMany`), or put
one record over another (`Ledger.updateFirst`).
-/

namespace StepLedger

open Sequence

/-! ## Keys of steps -/

namespace StepRecord

/-- The text of the key of a step. -/
def key (r : StepRecord) : String := Document.keyText (.number (.ofInt64 r.id))

theorem key?_toDocument (r : StepRecord) : r.toDocument.key? = some r.key := by
  rw [Document.key?, Store.get?_id_toDocument]
  rfl

theorem key_eq (r : StepRecord) : r.key = String.ofList (Decimal.ofInt r.id.toInt) := rfl

/-- Steps have one key text if they have one id. -/
theorem key_inj {r r' : StepRecord} : r.key = r'.key ↔ r.id = r'.id := by
  constructor
  · intro h
    rw [key_eq, key_eq] at h
    exact Int64.toInt_inj.1 (Decimal.ofInt_inj (String.ofList_injective h))
  · intro h
    rw [key_eq, key_eq, h]

theorem map_key?_toDocument (rs : List StepRecord) :
    (rs.map toDocument).map Document.key? = (rs.map key).map some := by
  rw [List.map_map, List.map_map]
  refine List.map_congr_left fun r _ => ?_
  rw [Function.comp_apply, Function.comp_apply, key?_toDocument]

/-- Steps have different keys if they have different ids. -/
theorem nodup_map_key {rs : List StepRecord} : (rs.map key).Nodup ↔ (rs.map (·.id)).Nodup := by
  rw [List.Nodup, List.Nodup, List.pairwise_map, List.pairwise_map]
  exact ⟨fun h => h.imp fun hne => mt key_inj.2 hne, fun h => h.imp fun hne => mt key_inj.1 hne⟩

end StepRecord

/-- What a store has to show for a site. -/
structure Ledger (site : Site) (s : Store) (value : Int64) (records : List StepRecord) : Prop where
  wellFormed : s.WellFormed
  /-- The last id that was handed out. -/
  counter : s.lastValue? site.counters site.sequence = some value
  /-- The steps that are stored. -/
  documents : (s.view site.steps).documents = records.map StepRecord.toDocument
  ids_le : ∀ r ∈ records, r.id.toInt ≤ value.toInt

namespace Ledger

variable {site : Site} {s s' : Store} {value : Int64} {records : List StepRecord}

/-- Steps and counters are in different collections. -/
theorem apart (h : Ledger site s value records) : site.steps ≠ site.counters := by
  intro heq
  obtain ⟨i, d, counter, -, hi, hid, -, -⟩ := Store.exists_counter h.wellFormed h.counter
  rw [← heq, h.documents] at hi
  obtain ⟨r, -, rfl⟩ := List.mem_map.1 (List.mem_of_getElem? hi)
  rw [Store.get?_id_toDocument] at hid
  cases hid

/-- The key texts of the steps are those of the records. -/
theorem keys (h : Ledger site s value records) :
    (s.view site.steps).keys = records.map StepRecord.key := by
  have hkeys := (h.wellFormed site.steps).1.keys
  rw [h.documents, StepRecord.map_key?_toDocument] at hkeys
  exact ((List.map_injective_iff.2 fun _ _ => Option.some.inj) hkeys).symm

/-- No step has the key of a record under a new id. -/
theorem keys_notMem (h : Ledger site s value records) {rs : List StepRecord}
    (hnew : ∀ r ∈ rs, r.id ∉ records.map (·.id)) :
    ∀ key ∈ rs.map StepRecord.key, key ∉ (s.view site.steps).keys := by
  intro key hkey hold
  rw [h.keys] at hold
  obtain ⟨r, hr, rfl⟩ := List.mem_map.1 hkey
  obtain ⟨r', hr', heq⟩ := List.mem_map.1 hold
  exact hnew r hr (List.mem_map.2 ⟨r', hr', StepRecord.key_inj.1 heq⟩)

/-- No two steps have one id. -/
theorem nodup (h : Ledger site s value records) : (records.map (·.id)).Nodup := by
  have hn := (h.wellFormed site.steps).1.nodup
  rwa [h.keys, StepRecord.nodup_map_key] at hn

theorem holdsSteps (h : Ledger site s value records) : s.HoldsSteps site.steps := by
  intro d hd
  rw [h.documents] at hd
  obtain ⟨r, -, rfl⟩ := List.mem_map.1 hd
  exact .inl ⟨r, rfl⟩

/-! ## What changes -/

/-- A ledger is about documents alone. -/
theorem of_documents (h : Ledger site s value records) (hs' : s'.WellFormed)
    (hdocuments : ∀ name, (s'.view name).documents = (s.view name).documents) :
    Ledger site s' value records where
  wellFormed := hs'
  counter := (Store.lastValue?_of_documents (hdocuments _) _).trans h.counter
  documents := (hdocuments site.steps).trans h.documents
  ids_le := h.ids_le

theorem of_alike (h : Ledger site s value records) (halike : s.Alike s') :
    Ledger site s' value records :=
  h.of_documents (halike.wellFormed h.wellFormed) fun name => by rw [halike]

/-- The next id is handed out. -/
theorem of_advances (h : Ledger site s value records) (hs' : s'.WellFormed) {n : Int64}
    (hn : Update.addChecked value 1 = some n)
    (hadvances : s.Advances s' site.counters site.sequence n) : Ledger site s' n records where
  wellFormed := hs'
  counter := hadvances.value
  documents := by rw [hadvances.others _ h.apart]; exact h.documents
  ids_le r hr := by
    have hle := h.ids_le r hr
    have hsum := Update.addChecked_eq_some_iff.1 hn
    have hone : (1 : Int64).toInt = 1 := rfl
    omega

/-- Another counter changes. -/
theorem of_touches (h : Ledger site s value records) (hs' : s'.WellFormed) {name : String}
    (hne : site.sequence ≠ name) (htouches : s.Touches s' site.counters name) :
    Ledger site s' value records where
  wellFormed := hs'
  counter := by
    rw [Store.lastValue?, htouches.counter?_eq hne]
    exact h.counter
  documents := by rw [htouches.others h.apart]; exact h.documents
  ids_le := h.ids_le

/-- Steps are inserted or replaced. -/
theorem of_becomes (h : Ledger site s value records) (hs' : s'.WellFormed)
    {records' : List StepRecord} (hids : ∀ r ∈ records', r.id.toInt ≤ value.toInt)
    (hbecomes : s.Becomes s' site.steps (records'.map StepRecord.toDocument)) :
    Ledger site s' value records' where
  wellFormed := hs'
  counter := by
    rw [Store.lastValue?, Store.counter?, hbecomes.others _ h.apart.symm]
    exact h.counter
  documents := hbecomes.documents
  ids_le := hids

/-! ## Requests that write steps -/

theorem insertOne (h : Ledger site s value records) {r : StepRecord}
    (hid : r.id.toInt ≤ value.toInt)
    (hinsert : s.insertOne site.steps r.toDocument = (.ok (), s')) :
    Ledger site s' value (records ++ [r]) := by
  have hs' := h.wellFormed.of_answer (.insertOne _ _) hinsert
  have hbecomes := Store.insertOne_ok h.wellFormed hinsert
  rw [h.documents, ← List.map_singleton, ← List.map_append] at hbecomes
  refine h.of_becomes hs' (fun r' hr' => ?_) hbecomes
  rcases List.mem_append.1 hr' with hr' | hr'
  · exact h.ids_le r' hr'
  · rwa [List.mem_singleton.1 hr']

/-- Records under new ids are all inserted or none is. -/
theorem insertMany (h : Ledger site s value records) {rs : List StepRecord}
    (hn : (rs.map (·.id)).Nodup)
    (hnew : ∀ r ∈ rs, r.id.toInt ≤ value.toInt ∧ r.id ∉ records.map (·.id))
    {result : Except StoreError Nat}
    (hinsert : s.insertMany site.steps (rs.map StepRecord.toDocument) = (result, s')) :
    (∃ e, result = .error e) ∧ Ledger site s' value records ∨
      (∃ n, result = .ok n) ∧ Ledger site s' value (records ++ rs) := by
  have hs' := h.wellFormed.of_answer (.insertMany _ _) hinsert
  cases result with
  | error e =>
    refine .inl ⟨⟨e, rfl⟩, h.of_alike ?_⟩
    exact Store.insertMany_error_of_fresh h.wellFormed (StepRecord.map_key?_toDocument rs)
      (StepRecord.nodup_map_key.2 hn) (h.keys_notMem fun r hr => (hnew r hr).2) hinsert
  | ok n =>
    refine .inr ⟨⟨n, rfl⟩, ?_⟩
    obtain ⟨halike, hnone⟩ | ⟨inserted, -, hall, hbecomes⟩ :=
      Store.insertMany_prefix h.wellFormed hinsert
    · rw [List.map_eq_nil_iff.1 (hnone n rfl), List.append_nil]
      exact h.of_alike halike
    · rw [hall n rfl, h.documents, ← List.map_append] at hbecomes
      refine h.of_becomes hs' (fun r hr => ?_) hbecomes
      rcases List.mem_append.1 hr with hr | hr
      · exact h.ids_le r hr
      · exact (hnew r hr).1

/-- An update over a version finds no step at it, or puts the record over that of the step. -/
theorem updateFirst (h : Ledger site s value records) {id : Int64} {version : Int32}
    {r : StepRecord} (hversion : r.version ≠ version) {result : UpdateResult}
    (hupdate : s.updateFirst site.steps ((Filter.byId (.ofInt64 id)).and StepRecord.versionField
      (.ofInt32 version)) r.update = (.ok result, s')) :
    result.matched = 0 ∧ Ledger site s' value records ∨
      ∃ (i : Nat) (before : StepRecord), records[i]? = some before ∧ before.id = id ∧
        before.version = version ∧ result.matched = 1 ∧
        Ledger site s' value (records.set i (r.laidOver before)) := by
  have hs' := h.wellFormed.of_answer (.updateFirst _ _ _) hupdate
  obtain ⟨hnone, halike⟩ | ⟨i, before, hi, hid, hbefore, hone, hbecomes⟩ :=
    Store.updateFirst_step h.wellFormed h.holdsSteps hversion hupdate
  · exact .inl ⟨hnone, h.of_alike halike⟩
  · rw [h.documents, List.getElem?_map, Option.map_eq_some_iff] at hi
    obtain ⟨b, hb, heq⟩ := hi
    -- the record in the ledger may count its times otherwise than the one that was found
    have hsame := StepRecord.toDocument_inj heq
    have hlaid : r.laidOver b = r.laidOver before := by
      show r.laidOver b.carried = r.laidOver before.carried
      rw [hsame]
    refine .inr ⟨i, b, hb, (congrArg StepRecord.id hsame).trans hid,
      (congrArg StepRecord.version hsame).trans hbefore, hone, h.of_becomes hs' (fun r' hr' => ?_) ?_⟩
    · rcases List.mem_or_eq_of_mem_set hr' with hr' | rfl
      · exact h.ids_le r' hr'
      · exact h.ids_le b (List.mem_of_getElem? hb)
    · rwa [h.documents, ← List.map_set, ← hlaid] at hbecomes

end Ledger

/-- An update that finds nothing has found no step at the version that it asked for. -/
theorem Ledger.version_ne {site : Site} {s s' : Store} {value : Int64} {records : List StepRecord}
    (h : Ledger site s value records) {id : Int64} {version : Int32} {u : Update}
    {result : UpdateResult}
    (hupdate : s.updateFirst site.steps ((Filter.byId (.ofInt64 id)).and StepRecord.versionField
      (.ofInt32 version)) u = (.ok result, s')) (hnone : result.matched = 0) {r : StepRecord}
    (hr : r ∈ records) (hid : r.id = id) : r.version ≠ version := by
  rintro rfl
  subst hid
  have hsel : ((Filter.byId (.ofInt64 r.id)).and StepRecord.versionField
      (.ofInt32 r.version)).selects r.toDocument = true :=
    (Filter.selects_byId_and_iff (Json.exact_ofInt64 r.id) (Json.exact_ofInt32 r.version)).2
      ⟨Store.get?_id_toDocument r, Store.get?_version_toDocument r⟩
  obtain ⟨hfirst, -⟩ | ⟨i, before, after, -, -, hone, -⟩ := Store.updateFirst_ok h.wellFormed hupdate
  · have hmem : r.toDocument ∈ (s.view site.steps).documents := by
      rw [h.documents]
      exact List.mem_map_of_mem hr
    rw [(Collection.first?_eq_none_iff (h.wellFormed site.steps).1 (Filter.idValue?_byId_and _ _ _)
      (Json.exact_ofInt64 r.id)).1 hfirst r.toDocument hmem] at hsel
    cases hsel
  · omega

/-! ## Requests that keep a ledger -/

/-- A request keeps every ledger. -/
def Site.Quiet (site : Site) (request : Request) : Prop :=
  ∀ s value records, Ledger site s value records →
    Ledger site (s.answer request).2 value records

namespace Site

variable (site : Site)

theorem quiet_find (collection : String) (f : Filter) : site.Quiet (.find collection f) := by
  intro s value records h
  rwa [Store.answer, Store.snd_find]

theorem quiet_count (collection : String) (f : Filter) : site.Quiet (.count collection f) := by
  intro s value records h
  rwa [Store.answer, Store.snd_count]

/-- A counter that is there is not seeded again. -/
theorem quiet_seed (name : String) (fields : Document) (hid : fields.get? idField = none) :
    site.Quiet (.findAndModify site.counters (.byId (.string name))
      { Update.empty with setOnInsert := fields } ⟨true, true⟩) := by
  intro s value records h
  have hs' := h.wellFormed.answer (.findAndModify site.counters (.byId (.string name))
    { Update.empty with setOnInsert := fields } ⟨true, true⟩)
  by_cases hname : site.sequence = name
  · subst hname
    rw [Store.answer]
    cases hseed : s.findAndModify site.counters (.byId (.string site.sequence))
        { Update.empty with setOnInsert := fields } ⟨true, true⟩ with
    | mk result s' =>
      cases result with
      | error e => exact h.of_alike (Store.findAndModify_error h.wellFormed hseed).1
      | ok found => exact h.of_alike (Store.seed_ok h.wellFormed h.counter hid hseed).1
  · exact h.of_touches hs' hname (Store.touches_findAndModify h.wellFormed)

variable {site} {name : String} (hname : site.sequence ≠ name)
include hname

theorem quiet_increment : site.Quiet (.findAndModify site.counters (.byId (.string name))
    (Update.empty.andInc valueField 1) ⟨true, false⟩) := fun _ _ _ h =>
  h.of_touches (h.wellFormed.answer _) hname (Store.touches_findAndModify h.wellFormed)

theorem quiet_swap (value next : Int64) : site.Quiet (.updateFirst site.counters
    ((Filter.byId (.string name)).and valueField (.ofInt64 value))
    (Update.empty.andSet valueField (.ofInt64 next))) := fun _ _ _ h =>
  h.of_touches (h.wellFormed.answer _) hname (Store.touches_updateFirst h.wellFormed fun _ hd =>
    ((Filter.selects_byId_and_iff (Json.exact_string name) (Json.exact_ofInt64 value)).1 hd).1)

end Site

/-! ## The step under an id -/

/-- The record of the step with an id. -/
def Store.step? (s : Store) (collection : String) (id : Int64) : Option StepRecord :=
  ((s.view collection).find (.byId (.ofInt64 id))).head?.bind fun d =>
    (StepRecord.ofDocument d).toOption

namespace StepRecord

theorem selects_toDocument (id : Int64) (r : StepRecord) :
    (Filter.byId (.ofInt64 id)).selects r.toDocument = decide (r.id = id) := by
  rw [Bool.eq_iff_iff, Filter.selects_byId_iff (Json.exact_ofInt64 id),
    Store.get?_id_toDocument_iff, decide_eq_true_iff]

/-- The document with an id is that of the record with that id. -/
theorem find?_map_toDocument (id : Int64) (rs : List StepRecord) :
    (rs.map toDocument).find? (Filter.byId (.ofInt64 id)).selects =
      (rs.find? (·.id = id)).map toDocument := by
  induction rs with
  | nil => rfl
  | cons r rs ih =>
    rw [List.map_cons, List.find?_cons, List.find?_cons, selects_toDocument, ih]
    cases decide (r.id = id) with
    | true => rfl
    | false => rfl

end StepRecord

theorem Ledger.step?_eq {site : Site} {s : Store} {value : Int64} {records : List StepRecord}
    (h : Ledger site s value records) (id : Int64) :
    s.step? site.steps id = (records.find? (·.id = id)).map StepRecord.carried := by
  rw [Store.step?, Collection.find, h.documents, List.head?_filter,
    StepRecord.find?_map_toDocument]
  cases records.find? fun r => decide (r.id = id) with
  | none => rfl
  | some r =>
    rw [Option.map_some, Option.bind_some, StepRecord.ofDocument_toDocument]
    rfl

theorem Ledger.step?_of_mem {site : Site} {s : Store} {value : Int64} {records : List StepRecord}
    (h : Ledger site s value records) {r : StepRecord} (hr : r ∈ records) :
    s.step? site.steps r.id = some r.carried := by
  rw [h.step?_eq]
  obtain ⟨r', hfind⟩ := Option.isSome_iff_exists.1
    (List.find?_isSome.2 ⟨r, hr, decide_eq_true rfl⟩ : (records.find? (·.id = r.id)).isSome)
  have hid : r'.id = r.id := by simpa using List.find?_some hfind
  rw [hfind, List.inj_on_of_nodup_map h.nodup (List.mem_of_find?_eq_some hfind) hr hid]
  rfl

theorem Ledger.mem_of_step? {site : Site} {s : Store} {value : Int64} {records : List StepRecord}
    (h : Ledger site s value records) {id : Int64} {r : StepRecord}
    (hr : s.step? site.steps id = some r) :
    ∃ stored ∈ records, r = stored.carried ∧ stored.id = id := by
  rw [h.step?_eq, Option.map_eq_some_iff] at hr
  obtain ⟨stored, hfind, rfl⟩ := hr
  exact ⟨stored, List.mem_of_find?_eq_some hfind, rfl, by simpa using List.find?_some hfind⟩

/-- The document with an id is that of the step with this id. -/
theorem Ledger.head?_find {site : Site} {s : Store} {value : Int64} {records : List StepRecord}
    (h : Ledger site s value records) (id : Int64) :
    ((s.view site.steps).find (.byId (.ofInt64 id))).head? =
      (s.step? site.steps id).map StepRecord.toDocument := by
  rw [h.step?_eq, Collection.find, h.documents, List.head?_filter, StepRecord.find?_map_toDocument]
  cases records.find? fun r => decide (r.id = id) with
  | none => rfl
  | some r => exact congrArg some r.toDocument_carried.symm

end StepLedger

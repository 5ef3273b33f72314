import Mathlib.Data.List.Nodup
import Mathlib.Tactic.ByContra
import StepLedger.Collection
import StepLedger.Proofs.Document.Apply
import StepLedger.Proofs.Document.Selects

/-!
# Well-formed collections

A collection is well formed if its key texts are those of its documents, in order, and no two of them
are the same. The empty collection is, and every operation keeps it so, whether it succeeds or not:
`WellFormed.insert`, `WellFormed.insertMany`, `WellFormed.updateFirst`, `WellFormed.findAndModify`.

A filter that pins the primary key to an exact value, such as a text or a whole number, selects at
most one document of a well-formed collection (`find_of_pinned`), and the first match is found where
it stands (`first?_eq_some_iff`).
-/

namespace StepLedger.Collection

/-- The key texts are those of the documents, in order, and do not repeat. -/
structure WellFormed (c : Collection) : Prop where
  keys : c.documents.map Document.key? = c.keys.map some
  nodup : c.keys.Nodup

theorem wellFormed_empty (name : String) : (empty name).WellFormed := ⟨rfl, List.nodup_nil⟩

/-- No two documents have the same key. -/
theorem WellFormed.nodup_documents {c : Collection} (h : c.WellFormed) :
    (c.documents.map Document.key?).Nodup :=
  h.keys ▸ h.nodup.map fun _ _ => Option.some.inj

/-- Every document has a key. -/
theorem WellFormed.exists_key {c : Collection} (h : c.WellFormed) {d : Document}
    (hd : d ∈ c.documents) : ∃ key ∈ c.keys, d.key? = some key := by
  have hm : d.key? ∈ c.keys.map some := h.keys ▸ List.mem_map_of_mem hd
  obtain ⟨key, hkey, heq⟩ := List.mem_map.1 hm
  exact ⟨key, hkey, heq.symm⟩

/-- Every document has a primary key. -/
theorem WellFormed.exists_id {c : Collection} (h : c.WellFormed) {d : Document}
    (hd : d ∈ c.documents) : ∃ id, d.get? idField = some id := by
  obtain ⟨key, -, hkey⟩ := h.exists_key hd
  obtain ⟨id, hid, -⟩ := Option.map_eq_some_iff.1 hkey
  exact ⟨id, hid⟩

/-- Documents with one key text stand at one place. -/
theorem WellFormed.index_eq {c : Collection} (h : c.WellFormed) {i j : Nat} {d e : Document}
    (hi : c.documents[i]? = some d) (hj : c.documents[j]? = some e) (hkey : d.key? = e.key?) :
    i = j := by
  have hn := h.nodup_documents
  obtain ⟨hilt, rfl⟩ := List.getElem?_eq_some_iff.1 hi
  obtain ⟨hjlt, rfl⟩ := List.getElem?_eq_some_iff.1 hj
  have hilt' : i < (c.documents.map Document.key?).length := by simpa using hilt
  have hjlt' : j < (c.documents.map Document.key?).length := by simpa using hjlt
  have heq : (c.documents.map Document.key?)[i] = (c.documents.map Document.key?)[j] := by
    simpa using hkey
  exact hn.getElem_inj_iff.1 heq

/-! ## Inserting -/

theorem insert_eq_ok {c c' : Collection} {d : Document} (h : c.insert d = .ok c') :
    ∃ key, d.key? = some key ∧ key ∉ c.keys ∧
      c' = ⟨c.name, c.documents ++ [d], c.keys ++ [key], c.revision + 1⟩ := by
  unfold insert at h
  split at h
  · cases h
  · next key hkey =>
    split at h
    · cases h
    · next hnew => cases h; exact ⟨key, hkey, by simpa using hnew, rfl⟩

theorem insert_of_key {c : Collection} {d : Document} {key : String} (hkey : d.key? = some key)
    (hnew : key ∉ c.keys) :
    c.insert d = .ok ⟨c.name, c.documents ++ [d], c.keys ++ [key], c.revision + 1⟩ := by
  unfold insert
  rw [hkey]
  simp [hnew]

theorem WellFormed.insert {c c' : Collection} {d : Document} (h : c.WellFormed)
    (hi : c.insert d = .ok c') : c'.WellFormed := by
  obtain ⟨key, hkey, hnew, rfl⟩ := insert_eq_ok hi
  refine ⟨by simp [h.keys, hkey], ?_⟩
  exact List.nodup_append.2 ⟨h.nodup, List.nodup_singleton key, fun other hm key' hm' heq => by
    rw [List.mem_singleton.1 hm'] at heq
    exact hnew (heq ▸ hm)⟩

theorem name_of_insert {c c' : Collection} {d : Document} (h : c.insert d = .ok c') :
    c'.name = c.name := by
  obtain ⟨_, _, _, rfl⟩ := insert_eq_ok h
  rfl

/-- What holds of a collection and is kept by inserting holds after inserting one by one. -/
theorem foldlM_insert_induction {motive : Collection → Prop} {c c' : Collection}
    {ds : List Document} (h : ds.foldlM insert c = .ok c') (init : motive c)
    (step : ∀ {c c' d}, motive c → c.insert d = .ok c' → motive c') : motive c' :=
  Except.foldlM_induction h init fun _ _ _ _ hc hi => step hc hi

/-- Inserting one by one adds the documents at the end, and each of them counts as a change. -/
theorem foldlM_insert_eq_ok {c c' : Collection} {ds : List Document}
    (h : ds.foldlM insert c = .ok c') :
    c'.documents = c.documents ++ ds ∧ c'.revision = c.revision + ds.length := by
  induction ds generalizing c with
  | nil =>
    cases h
    exact ⟨(List.append_nil _).symm, rfl⟩
  | cons d ds ih =>
    rw [List.foldlM_cons] at h
    obtain ⟨next, hinsert, hrest⟩ := Except.bind_eq_ok.1 h
    obtain ⟨key, -, -, rfl⟩ := insert_eq_ok hinsert
    obtain ⟨hdocuments, hrevision⟩ := ih hrest
    refine ⟨by rw [hdocuments, List.append_assoc]; rfl, ?_⟩
    rw [hrevision, List.length_cons, Nat.add_assoc, Nat.add_comm 1]

/-- Documents with new keys, no two the same, can be inserted one by one. -/
theorem foldlM_insert {ds : List Document} : ∀ {keys : List String} {c : Collection},
    ds.map Document.key? = keys.map some → keys.Nodup → (∀ key ∈ keys, key ∉ c.keys) →
    ds.foldlM insert c =
      .ok ⟨c.name, c.documents ++ ds, c.keys ++ keys, c.revision + ds.length⟩ := by
  induction ds with
  | nil =>
    intro keys c hkeys _ _
    obtain rfl : keys = [] := by simpa using hkeys.symm
    simp [pure, Except.pure]
  | cons d ds ih =>
    intro keys c hkeys hn hnew
    cases keys with
    | nil => cases hkeys
    | cons key keys =>
      obtain ⟨hkey, hkeys⟩ := List.cons.inj hkeys
      obtain ⟨hnot, hn⟩ := List.nodup_cons.1 hn
      rw [List.foldlM_cons, insert_of_key hkey (hnew key List.mem_cons_self), Except.ok_bind,
        ih hkeys hn]
      · simp [Nat.add_assoc, Nat.add_comm 1]
      · intro other hm
        have hold := hnew other (List.mem_cons_of_mem _ hm)
        have hne : other ≠ key := fun heq => hnot (heq ▸ hm)
        simp [hold, hne]

/-! ## Inserting many -/

/-- A batch goes on behind the documents that can be inserted one by one. -/
theorem go_append {c c' : Collection} {ds : List Document} (h : ds.foldlM insert c = .ok c')
    (n : Nat) (rest : List Document) :
    insertMany.go c n (ds ++ rest) = insertMany.go c' (n + ds.length) rest := by
  induction ds generalizing c n with
  | nil =>
    cases h
    rfl
  | cons d ds ih =>
    rw [List.foldlM_cons] at h
    obtain ⟨next, hinsert, hrest⟩ := Except.bind_eq_ok.1 h
    calc insertMany.go c n (d :: (ds ++ rest))
        = insertMany.go next (n + 1) (ds ++ rest) := by rw [insertMany.go, hinsert]
      _ = insertMany.go c' (n + 1 + ds.length) rest := ih hrest (n + 1)
      _ = insertMany.go c' (n + (ds.length + 1)) rest := by rw [Nat.add_assoc, Nat.add_comm 1]

/-- Documents that can be inserted one by one are all inserted. -/
theorem insertMany_of_inserted {c c' : Collection} {ds : List Document}
    (h : ds.foldlM insert c = .ok c') : c.insertMany ds = (.ok ds.length, c') := by
  have hgo := go_append h 0 []
  rwa [List.append_nil, Nat.zero_add] at hgo

/-- Behind the first document that is refused nothing is inserted. -/
theorem insertMany_of_refused {c c' : Collection} {before : List Document} {d : Document}
    {source : StoreError} (h : before.foldlM insert c = .ok c')
    (hrefused : c'.insert d = .error source) (rest : List Document) :
    c.insertMany (before ++ d :: rest) = (.error (.bulkWrite before.length source), c') := by
  rw [insertMany, go_append h, Nat.zero_add, insertMany.go, hrefused]

/-- All documents can be inserted one by one, or those before the first that is refused. -/
theorem insertMany_outcome (c : Collection) (ds : List Document) :
    (∃ c', ds.foldlM insert c = .ok c' ∧ c.insertMany ds = (.ok ds.length, c')) ∨
    ∃ before d rest c' source, ds = before ++ d :: rest ∧ before.foldlM insert c = .ok c' ∧
      c'.insert d = .error source ∧
      c.insertMany ds = (.error (.bulkWrite before.length source), c') := by
  obtain ⟨source, hfails⟩ | ⟨c', hall⟩ := Except.eq_error_or_ok (ds.foldlM insert c)
  · obtain ⟨before, d, rest, c', rfl, hbefore, hrefused⟩ := Except.foldlM_eq_error hfails
    exact .inr ⟨before, d, rest, c', source, rfl, hbefore, hrefused,
      insertMany_of_refused hbefore hrefused rest⟩
  · exact .inl ⟨c', hall, insertMany_of_inserted hall⟩

/-- What holds of a collection and is kept by inserting holds after inserting many. -/
theorem insertMany_induction {motive : Collection → Prop} {c : Collection} (h : motive c)
    (step : ∀ {c c' d}, motive c → c.insert d = .ok c' → motive c') (ds : List Document) :
    motive (c.insertMany ds).2 := by
  obtain ⟨c', hall, heq⟩ | ⟨before, d, rest, c', source, -, hbefore, -, heq⟩ :=
    c.insertMany_outcome ds
  · rw [heq]
    exact foldlM_insert_induction hall h step
  · rw [heq]
    exact foldlM_insert_induction hbefore h step

theorem WellFormed.insertMany {c : Collection} (h : c.WellFormed) (ds : List Document) :
    (c.insertMany ds).2.WellFormed :=
  insertMany_induction h (fun h hi => h.insert hi) ds

theorem name_insertMany (c : Collection) (ds : List Document) :
    (c.insertMany ds).2.name = c.name :=
  insertMany_induction (motive := fun c' => c'.name = c.name) rfl
    (fun h hi => (name_of_insert hi).trans h) ds

/-- All documents are inserted, or those before the first that cannot be. -/
theorem insertMany_cases (c : Collection) (ds : List Document) :
    ((c.insertMany ds).1 = .ok ds.length ∧
      (c.insertMany ds).2.documents = c.documents ++ ds ∧
      (c.insertMany ds).2.revision = c.revision + ds.length) ∨
    ∃ k source, (c.insertMany ds).1 = .error (.bulkWrite k source) ∧ k < ds.length ∧
      (c.insertMany ds).2.documents = c.documents ++ ds.take k ∧
      (c.insertMany ds).2.revision = c.revision + k := by
  obtain ⟨c', hall, heq⟩ | ⟨before, d, rest, c', source, rfl, hbefore, -, heq⟩ :=
    c.insertMany_outcome ds
  · rw [heq]
    exact .inl ⟨rfl, foldlM_insert_eq_ok hall⟩
  · rw [heq]
    refine .inr ⟨before.length, source, rfl, by simp, ?_⟩
    rw [List.take_left]
    exact foldlM_insert_eq_ok hbefore

/-- What can be inserted first is inserted. -/
theorem insertMany_cons {c c' : Collection} {d : Document} (h : c.insert d = .ok c')
    (ds : List Document) : (c.insertMany (d :: ds)).2 = (c'.insertMany ds).2 := by
  have hfirst : ∀ ds : List Document, (d :: ds).foldlM insert c = ds.foldlM insert c' := fun ds => by
    rw [List.foldlM_cons, h, Except.ok_bind]
  obtain ⟨c'', hall, heq⟩ | ⟨before, e, rest, c'', source, rfl, hbefore, hrefused, heq⟩ :=
    c'.insertMany_outcome ds
  · rw [insertMany_of_inserted ((hfirst ds).trans hall), heq]
  · rw [← List.cons_append, insertMany_of_refused ((hfirst before).trans hbefore) hrefused, heq]

/-- The documents up to the first that cannot be inserted are inserted. -/
theorem insertMany_eq (c : Collection) (ds : List Document) :
    ∃ inserted, inserted <+: ds ∧ (∀ n, (c.insertMany ds).1 = .ok n → inserted = ds) ∧
      (c.insertMany ds).2.documents = c.documents ++ inserted ∧
      (c.insertMany ds).2.revision = c.revision + inserted.length := by
  obtain ⟨-, hdocuments, hrevision⟩ | ⟨k, source, herror, hk, hdocuments, hrevision⟩ :=
    insertMany_cases c ds
  · exact ⟨ds, List.prefix_rfl, fun _ _ => rfl, hdocuments, hrevision⟩
  · refine ⟨ds.take k, List.take_prefix k ds, fun n hn => ?_, hdocuments, ?_⟩
    · rw [herror] at hn
      cases hn
    · rw [hrevision, List.length_take_of_le (Nat.le_of_lt hk)]

/-- Documents with new keys, no two the same, can all be inserted. -/
theorem insertMany_of_fresh {c : Collection} {ds : List Document} {keys : List String}
    (hkeys : ds.map Document.key? = keys.map some) (hn : keys.Nodup)
    (hnew : ∀ key ∈ keys, key ∉ c.keys) : ∃ n, (c.insertMany ds).1 = .ok n :=
  ⟨ds.length, by rw [insertMany_of_inserted (foldlM_insert hkeys hn hnew)]⟩

/-! ## The first match -/

theorem first?_eq_some {c : Collection} {f : Filter} {i : Nat} {d : Document}
    (h : c.first? f = some (i, d)) : c.documents[i]? = some d ∧ f.selects d = true := by
  obtain ⟨index, hp, hd⟩ := Option.bind_eq_some_iff.1 h
  obtain ⟨d', hd', heq⟩ := Option.map_eq_some_iff.1 hd
  cases heq
  refine ⟨hd', ?_⟩
  have hfound : c.documents.findIdx? f.selects = some i := by
    unfold position? at hp
    split at hp
    · split at hp
      · exact hp
      · cases hp
    · exact hp
  obtain ⟨hlt, hs, -⟩ := List.findIdx?_eq_some_iff_getElem.1 hfound
  obtain ⟨_, rfl⟩ := List.getElem?_eq_some_iff.1 hd'
  exact hs

/-! ## Changing a document -/

/-- To replace an item by another that looks the same does not change what the items look like. -/
theorem map_set_of_eq {α β : Type} {look : α → β} {items : List α} {i : Nat} {a b : α}
    (hi : items[i]? = some a) (h : look b = look a) : (items.set i b).map look = items.map look := by
  obtain ⟨hlt, rfl⟩ := List.getElem?_eq_some_iff.1 hi
  have hlt' : i < (items.map look).length := by rwa [List.length_map]
  have hlook : look items[i] = (items.map look)[i] := (List.getElem_map look).symm
  rw [List.map_set, h, hlook, List.set_getElem_self]

/-- A document may be replaced by another with its key. -/
theorem WellFormed.replaceAt {c : Collection} (h : c.WellFormed) {i : Nat} {before after : Document}
    (hi : c.documents[i]? = some before) (hkey : after.key? = before.key?) :
    (c.replaceAt i before after).WellFormed :=
  ⟨(map_set_of_eq hi hkey).trans h.keys, h.nodup⟩

/-- To put a document in its own place is no change. -/
theorem replaceAt_self {c : Collection} {i : Nat} {d : Document} (hi : c.documents[i]? = some d) :
    c.replaceAt i d d = c := by
  obtain ⟨hlt, rfl⟩ := List.getElem?_eq_some_iff.1 hi
  simp [replaceAt, Document.same_refl]

/-- The revision only stays if a document is replaced by an equal one. -/
theorem same_of_revision_replaceAt {c : Collection} {i : Nat} {before after : Document}
    (h : (c.replaceAt i before after).revision = c.revision) : after.same before = true := by
  by_contra hsame
  rw [replaceAt, if_neg hsame] at h
  exact Nat.succ_ne_self _ h

theorem key?_of_apply {u : Update} {d d' : Document} (h : u.apply d = .ok d') :
    d'.key? = d.key? := by
  rw [Document.key?, Document.key?, Update.get?_id_of_apply h]

theorem updateFirst_eq_ok {c c' : Collection} {f : Filter} {u : Update} {result : UpdateResult}
    (h : c.updateFirst f u = .ok (result, c')) :
    c.first? f = none ∧ result = ⟨0, 0⟩ ∧ c' = c ∨
      ∃ i before after, c.first? f = some (i, before) ∧ u.apply before = .ok after ∧
        result = ⟨1, if after.same before then 0 else 1⟩ ∧ c' = c.replaceAt i before after := by
  unfold updateFirst at h
  split at h
  · next hf => cases h; exact .inl ⟨hf, rfl, rfl⟩
  · next i before hf =>
    obtain ⟨after, ha, h⟩ := Except.bind_eq_ok.1 h
    cases h
    exact .inr ⟨i, before, after, hf, ha, rfl, rfl⟩

theorem findAndModify_eq_ok {c c' : Collection} {f : Filter} {u : Update} {how : FindAndModify}
    {result : Option Document} (h : c.findAndModify f u how = .ok (result, c')) :
    (∃ i before after, c.first? f = some (i, before) ∧ u.apply before = .ok after ∧
        result = some (if how.returnNew then after else before) ∧
        c' = c.replaceAt i before after) ∨
      c.first? f = none ∧
        (how.upsert = false ∧ result = none ∧ c' = c ∨
          how.upsert = true ∧ ∃ created, u.create f = .ok created ∧ c.insert created = .ok c' ∧
            result = if how.returnNew then some created else none) := by
  unfold findAndModify at h
  split at h
  · next i before hf =>
    obtain ⟨after, ha, h⟩ := Except.bind_eq_ok.1 h
    cases h
    exact .inl ⟨i, before, after, hf, ha, rfl, rfl⟩
  · next hf =>
    refine .inr ⟨hf, ?_⟩
    split at h
    · next hup =>
      obtain ⟨created, hc, h⟩ := Except.bind_eq_ok.1 h
      obtain ⟨inserted, hi, h⟩ := Except.bind_eq_ok.1 h
      cases h
      exact .inr ⟨hup, created, hc, hi, rfl⟩
    · next hup => cases h; exact .inl ⟨by simpa using hup, rfl, rfl⟩

theorem first?_empty (name : String) (f : Filter) : (empty name).first? f = none := by
  unfold first? position?
  cases f.idValue? <;> simp [empty]

theorem updateFirst_empty (name : String) (f : Filter) (u : Update) :
    (empty name).updateFirst f u = .ok (⟨0, 0⟩, empty name) := by
  rw [updateFirst, first?_empty]

theorem findAndModify_empty (name : String) (f : Filter) (u : Update) {how : FindAndModify}
    (hup : how.upsert = false) : (empty name).findAndModify f u how = .ok (none, empty name) := by
  rw [findAndModify, first?_empty]
  simp [hup]

theorem WellFormed.updateFirst {c c' : Collection} {f : Filter} {u : Update}
    {result : UpdateResult} (h : c.WellFormed) (hu : c.updateFirst f u = .ok (result, c')) :
    c'.WellFormed ∧ c'.name = c.name := by
  obtain ⟨-, -, rfl⟩ | ⟨i, before, after, hf, ha, -, rfl⟩ := updateFirst_eq_ok hu
  · exact ⟨h, rfl⟩
  · exact ⟨h.replaceAt (first?_eq_some hf).1 (key?_of_apply ha), rfl⟩

theorem WellFormed.findAndModify {c c' : Collection} {f : Filter} {u : Update}
    {how : FindAndModify} {result : Option Document} (h : c.WellFormed)
    (hu : c.findAndModify f u how = .ok (result, c')) : c'.WellFormed ∧ c'.name = c.name := by
  obtain ⟨i, before, after, hf, ha, -, rfl⟩ | ⟨-, ⟨-, -, rfl⟩ | ⟨-, created, -, hi, -⟩⟩ :=
    findAndModify_eq_ok hu
  · exact ⟨h.replaceAt (first?_eq_some hf).1 (key?_of_apply ha), rfl⟩
  · exact ⟨h, rfl⟩
  · exact ⟨h.insert hi, name_of_insert hi⟩

/-- Documents read from somewhere form a well-formed collection, or none. -/
theorem wellFormed_of_ofDocuments {name : String} {ds : List Document} {c : Collection}
    (h : ofDocuments name ds = .ok c) : c.WellFormed ∧ c.name = name := by
  obtain ⟨c', hf, h⟩ := Except.bind_eq_ok.1 h
  cases h
  obtain ⟨hwf, hname⟩ := foldlM_insert_induction (motive := fun c => c.WellFormed ∧ c.name = name)
    hf ⟨wellFormed_empty name, rfl⟩ fun ih hi =>
      ⟨ih.1.insert hi, (name_of_insert hi).trans ih.2⟩
  exact ⟨⟨hwf.keys, hwf.nodup⟩, hname⟩

/-- A collection is made of its documents, but for its name and the count of the changes. -/
theorem WellFormed.ofDocuments {c : Collection} (h : c.WellFormed) (name : String) :
    ofDocuments name c.documents = .ok { c with name, revision := 0 } := by
  rw [Collection.ofDocuments, foldlM_insert h.keys h.nodup fun _ _ => List.not_mem_nil]
  rfl

/-! ## Filters that pin the key -/

/-- A filter keeps one item if that is the only one it holds of. -/
theorem filter_eq_singleton {α : Type} {p : α → Bool} {items : List α} {i : Nat} {a : α}
    (hi : items[i]? = some a) (ha : p a = true)
    (hone : ∀ j b, items[j]? = some b → p b = true → j = i) : items.filter p = [a] := by
  induction items generalizing i with
  | nil => simp at hi
  | cons item items ih =>
    cases i with
    | zero =>
      obtain rfl : item = a := by simpa using hi
      have hrest : items.filter p = [] := List.filter_eq_nil_iff.2 fun b hb hp => by
        obtain ⟨j, hj⟩ := List.mem_iff_getElem?.1 hb
        exact absurd (hone (j + 1) b (by simpa using hj) hp) (Nat.succ_ne_zero j)
      rw [List.filter_cons_of_pos ha, hrest]
    | succ i =>
      have hitem : ¬ p item = true := fun hp =>
        absurd (hone 0 item rfl hp) (Nat.succ_ne_zero i).symm
      rw [List.filter_cons_of_neg hitem]
      exact ih (by simpa using hi) fun j b hj hp =>
        Nat.succ.inj (hone (j + 1) b (by simpa using hj) hp)

/-- To replace an item outside a filter by another outside it does not matter to the filter. -/
theorem filter_set_of_not {α : Type} {p : α → Bool} {items : List α} {i : Nat} {a b : α}
    (hi : items[i]? = some a) (ha : p a = false) (hb : p b = false) :
    (items.set i b).filter p = items.filter p := by
  induction items generalizing i with
  | nil => rfl
  | cons item items ih =>
    cases i with
    | zero =>
      obtain rfl : item = a := by simpa using hi
      rw [List.set_cons_zero, List.filter_cons_of_neg (by simp [hb]),
        List.filter_cons_of_neg (by simp [ha])]
    | succ i =>
      rw [List.set_cons_succ, List.filter_cons, List.filter_cons, ih (by simpa using hi)]

section Pinned

variable {c : Collection} {f : Filter} {id : Json}

/-- A document that a filter selects has the key that the filter asks for, up to equality. -/
theorem same_of_selects {d : Document} (hid : f.idValue? = some id) (hs : f.selects d = true)
    (hkey : d.key? ≠ none) : ∃ value, d.get? idField = some value ∧ value.same id.value = true := by
  obtain ⟨clause, hc, rfl⟩ := Option.map_eq_some_iff.1 hid
  have hname : clause.1 = idField := by simpa using List.find?_some hc
  have hholds : Filter.holds clause d = true :=
    List.all_eq_true.1 hs clause (List.mem_of_find?_eq_some hc)
  rw [Filter.holds, hname] at hholds
  cases hv : d.get? idField with
  | none => exact absurd (by simp [Document.key?, hv]) hkey
  | some value => rw [hv] at hholds; exact ⟨value, rfl, hholds⟩

variable (h : c.WellFormed) (hid : f.idValue? = some id) (hexact : id.Exact)
include h hid hexact

/-- A document that is selected has exactly the key asked for. -/
theorem get?_id_of_selects {d : Document} (hd : d ∈ c.documents) (hs : f.selects d = true) :
    d.get? idField = some id.value := by
  obtain ⟨key, -, hkey⟩ := h.exists_key hd
  obtain ⟨value, hv, heq⟩ := same_of_selects hid hs (by simp [hkey])
  rw [hv, hexact.eq_of_same value heq]

/-- Trying the key texts first loses no match. -/
theorem position?_of_pinned : c.position? f = c.documents.findIdx? f.selects := by
  unfold position?
  rw [hid]
  dsimp only
  split
  · rfl
  · next hkey =>
    refine (List.findIdx?_eq_none_iff.2 fun d hd => ?_).symm
    by_contra hs
    rw [Bool.not_eq_false] at hs
    obtain ⟨key, hm, hk⟩ := h.exists_key hd
    rw [Document.key?, get?_id_of_selects h hid hexact hd hs] at hk
    cases hk
    exact hkey (by simpa using hm)

theorem first?_eq_some_iff {i : Nat} {d : Document} :
    c.first? f = some (i, d) ↔ c.documents[i]? = some d ∧ f.selects d = true := by
  refine ⟨first?_eq_some, fun ⟨hi, hs⟩ => ?_⟩
  obtain ⟨hlt, rfl⟩ := List.getElem?_eq_some_iff.1 hi
  have hfound : c.documents.findIdx? f.selects = some i := by
    refine List.findIdx?_eq_some_iff_getElem.2 ⟨hlt, hs, fun j hji hj => ?_⟩
    have hjlt : j < c.documents.length := Nat.lt_trans hji hlt
    have hkey := get?_id_of_selects h hid hexact (List.getElem_mem hlt) hs
    have hkey' := get?_id_of_selects h hid hexact (List.getElem_mem hjlt) hj
    have := h.index_eq (List.getElem?_eq_getElem hjlt) hi
      (by rw [Document.key?, Document.key?, hkey, hkey'])
    omega
  rw [first?, position?_of_pinned h hid hexact, hfound]
  simp [hi]

theorem first?_eq_none_iff : c.first? f = none ↔ ∀ d ∈ c.documents, f.selects d = false := by
  rw [first?, position?_of_pinned h hid hexact]
  cases hfound : c.documents.findIdx? f.selects with
  | none => simpa using hfound
  | some i =>
    obtain ⟨hlt, hs, -⟩ := List.findIdx?_eq_some_iff_getElem.1 hfound
    simp only [Option.bind_some, List.getElem?_eq_getElem hlt, Option.map_some, reduceCtorEq,
      false_iff]
    intro hnone
    simp [hnone _ (List.getElem_mem hlt)] at hs

/-- At most one document is found, the first match. -/
theorem find_of_pinned : c.find f = ((c.first? f).map (·.2)).toList := by
  cases hf : c.first? f with
  | none =>
    rw [first?_eq_none_iff h hid hexact] at hf
    simpa [find] using hf
  | some found =>
    obtain ⟨i, d⟩ := found
    obtain ⟨hi, hs⟩ := first?_eq_some hf
    refine filter_eq_singleton hi hs fun j e hj he => ?_
    have := (first?_eq_some_iff h hid hexact).2 ⟨hj, he⟩
    rw [hf] at this
    cases this
    rfl

/-- If one document is wanted, the first match is found. -/
theorem head?_find_of_pinned : (c.find f).head? = (c.first? f).map (·.2) := by
  rw [find_of_pinned h hid hexact]
  cases c.first? f <;> rfl

end Pinned

end StepLedger.Collection

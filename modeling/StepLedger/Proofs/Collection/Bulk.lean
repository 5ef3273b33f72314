import StepLedger.Proofs.Collection.PrimaryKey

/-!
# Bulk inserts

To insert documents in bulk is to insert them one by one, up to the first that is refused
(`insertMany_like_insert`). Which one that is depends on the documents before it: one is refused behind
others if it has no primary key, or if one of the others has the same (`Refused`). What follows the
first that is refused makes no difference.
-/

namespace StepLedger.Collection

variable {c c' : Collection} {before ds rest : List Document} {d : Document} {source : StoreError}

/-- Why a document cannot be added to a collection that holds others. -/
inductive Refused (name : String) (ds : List Document) (d : Document) : StoreError → Prop
  | unkeyed (hid : d.get? idField = none) : Refused name ds d (.invalidArgument (.noKey name))
  | taken {e : Document} {id : Json.Value} (he : e ∈ ds) (hused : e.get? idField = some id)
      (hid : d.get? idField = some id) :
      Refused name ds d (.duplicateKey name (Document.keyText id))

/-! ## One document -/

theorem insert_of_unkeyed (hid : d.get? idField = none) :
    c.insert d = .error (.invalidArgument (.noKey c.name)) := by
  rw [insert, Document.key?, hid]
  rfl

/-- Inserting fails for the reason for which the document is refused. -/
theorem WellFormed.insert_eq_error (h : c.WellFormed) :
    c.insert d = .error source ↔ Refused c.name c.documents d source := by
  constructor
  · intro hfails
    cases hid : d.get? idField with
    | none =>
      rw [insert_of_unkeyed hid] at hfails
      cases hfails
      exact .unkeyed hid
    | some id =>
      obtain ⟨rfl, e, he, hused⟩ := (h.insert_eq_error_iff hid).1 hfails
      exact .taken he hused hid
  · rintro (hid | ⟨he, hused, hid⟩)
    · exact insert_of_unkeyed hid
    · exact (h.insert_eq_error_iff hid).2 ⟨rfl, _, he, hused⟩

/-- Behind documents that were inserted one by one, a document is refused over these too. -/
theorem WellFormed.insert_eq_error_behind (h : c.WellFormed)
    (hbefore : before.foldlM Collection.insert c = .ok c') :
    c'.insert d = .error source ↔ Refused c.name (c.documents ++ before) d source := by
  obtain ⟨hwf, hname⟩ := foldlM_insert_induction
    (motive := fun c' => c'.WellFormed ∧ c'.name = c.name) hbefore ⟨h, rfl⟩
    fun ⟨hwf, hname⟩ hi => ⟨hwf.insert hi, (name_of_insert hi).trans hname⟩
  rw [hwf.insert_eq_error, hname, (foldlM_insert_eq_ok hbefore).1]

/-! ## The documents of a batch -/

/-- Where all documents can be inserted one by one, none is refused behind those before it. -/
theorem WellFormed.not_refused (h : c.WellFormed)
    (hall : (before ++ d :: rest).foldlM Collection.insert c = .ok c') (source : StoreError) :
    ¬ Refused c.name (c.documents ++ before) d source := by
  rw [List.foldlM_append] at hall
  obtain ⟨between, hbefore, hrest⟩ := Except.bind_eq_ok.1 hall
  rw [List.foldlM_cons] at hrest
  obtain ⟨next, hinsert, -⟩ := Except.bind_eq_ok.1 hrest
  intro hrefused
  rw [(h.insert_eq_error_behind hbefore).2 hrefused] at hinsert
  cases hinsert

/-- Either no document is refused behind those that are there and those before it in the batch; then
inserting them one by one succeeds, and inserting them in bulk leads to the same collection and returns
their number. Or one is the first to be refused; then the bulk insert leaves what inserting those before
it leaves, and fails with their number and with the error of that one, whatever follows it. -/
theorem insertMany_like_insert (hc : c.Reachable) (ds : List Document) :
    (∃ c', ds.foldlM insert c = .ok c' ∧ c.insertMany ds = (.ok ds.length, c') ∧
      ∀ before d rest, ds = before ++ d :: rest →
        ∀ source, ¬ Refused c.name (c.documents ++ before) d source) ∨
    ∃ before d rest c' source, ds = before ++ d :: rest ∧ before.foldlM insert c = .ok c' ∧
      c'.insert d = .error source ∧ Refused c.name (c.documents ++ before) d source ∧
      ∀ others, c.insertMany (before ++ d :: others) =
        (.error (.bulkWrite before.length source), c') := by
  obtain ⟨c', hall, heq⟩ | ⟨before, d, rest, c', source, rfl, hbefore, hrefused, -⟩ :=
    c.insertMany_outcome ds
  · refine .inl ⟨c', hall, heq, ?_⟩
    rintro before d rest rfl
    exact hc.wellFormed.not_refused hall
  · exact .inr ⟨before, d, rest, c', source, rfl, hbefore, hrefused,
      (hc.wellFormed.insert_eq_error_behind hbefore).1 hrefused,
      insertMany_of_refused hbefore hrefused⟩

/-- A collection of one document. -/
def ofKeyed (id : String) : Collection :=
  ⟨"pages", [keyed id], [Document.keyText (.string id)], 1⟩

theorem reachable_ofKeyed (id : String) : (ofKeyed id).Reachable :=
  .insert (.empty "pages") (insert_of_key (Document.key?_of_get? rfl) List.not_mem_nil)

/-- Of a batch that repeats a key within itself and then has a document without key, the documents
before the repetition are inserted. -/
theorem insertMany_like_insert_of_repeated : (ofKeyed "a").Reachable ∧
    ∃ c', [keyed "b", keyed "c"].foldlM insert (ofKeyed "a") = .ok c' ∧
      c'.documents = [keyed "a", keyed "b", keyed "c"] ∧
      ∀ others, (ofKeyed "a").insertMany ([keyed "b", keyed "c"] ++ keyed "b" :: others) =
        (.error (.bulkWrite 2 (.duplicateKey "pages" "\"b\"")), c') := by
  have hfails : ((ofKeyed "a").insertMany [keyed "b", keyed "c", keyed "b", .empty]).1 =
      .error (.bulkWrite 2 (.duplicateKey "pages" "\"b\"")) := rfl
  obtain ⟨c', -, heq, -⟩ | ⟨before, d, rest, c', source, hds, hbefore, -, -, heq⟩ :=
    insertMany_like_insert (reachable_ofKeyed "a") [keyed "b", keyed "c", keyed "b", .empty]
  · rw [heq] at hfails
    cases hfails
  · rw [hds, heq] at hfails
    obtain ⟨hlength, rfl⟩ := StoreError.bulkWrite.inj (Except.error.inj hfails)
    replace hds : [keyed "b", keyed "c"] ++ [keyed "b", .empty] = before ++ d :: rest := hds
    obtain ⟨hsplit, hrest⟩ := List.append_inj hds hlength.symm
    cases hrest
    subst hsplit
    exact ⟨reachable_ofKeyed "a", c', hbefore, (foldlM_insert_eq_ok hbefore).1, heq⟩

end StepLedger.Collection

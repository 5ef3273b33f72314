import StepLedger.Proofs.Collection.WellFormed

/-!
# The first match

An update acts on the first document that `Collection.find` lists, if it acts at all
(`acts_on_first`). It does not if no document has the text of the key that the filter asks for,
because then no document is looked at (`Collection.Misses`). Equal keys have equal texts, unless a
zero of binary64 is in them: a document whose key is `0.0` is found for the key `-0.0` but not updated
(`negative_zero_is_missed`).
-/

namespace StepLedger.Collection

variable {c c' : Collection} {f : Filter} {u : Update} {how : FindAndModify} {i : Nat} {d : Document}

/-- The collections that can come about. -/
inductive Reachable : Collection → Prop
  | empty (name : String) : Reachable (.empty name)
  | ofDocuments {name : String} {ds : List Document} {c : Collection}
      (h : ofDocuments name ds = .ok c) : Reachable c
  | insert {c c' : Collection} {d : Document} (h : Reachable c) (hi : c.insert d = .ok c') :
      Reachable c'
  | insertMany {c : Collection} (h : Reachable c) (ds : List Document) : Reachable (c.insertMany ds).2
  | updateFirst {c c' : Collection} {f : Filter} {u : Update} {result : UpdateResult}
      (h : Reachable c) (hu : c.updateFirst f u = .ok (result, c')) : Reachable c'
  | findAndModify {c c' : Collection} {f : Filter} {u : Update} {how : FindAndModify}
      {result : Option Document} (h : Reachable c)
      (hu : c.findAndModify f u how = .ok (result, c')) : Reachable c'

theorem Reachable.wellFormed (h : c.Reachable) : c.WellFormed := by
  induction h with
  | empty name => exact wellFormed_empty name
  | ofDocuments h => exact (wellFormed_of_ofDocuments h).1
  | insert _ hi ih => exact ih.insert hi
  | insertMany _ ds ih => exact ih.insertMany ds
  | updateFirst _ hu ih => exact (ih.updateFirst hu).1
  | findAndModify _ hu ih => exact (ih.findAndModify hu).1

/-! ## Where the first match stands -/

/-- The filter asks for a key, and no document has the text of it. -/
def Misses (c : Collection) (f : Filter) : Prop :=
  ∃ id, f.idValue? = some id ∧ Document.keyText id.value ∉ c.keys

/-- The document stands at the place and matches, and none before it does. -/
structure IsFirst (c : Collection) (f : Filter) (i : Nat) (d : Document) : Prop where
  here : c.documents[i]? = some d
  selected : f.selects d = true
  none_before : ∀ e ∈ c.documents.take i, f.selects e = false

/-- The first match is the first document found. -/
theorem IsFirst.head?_find (h : c.IsFirst f i d) : (c.find f).head? = some d := by
  obtain ⟨hlt, rfl⟩ := List.getElem?_eq_some_iff.1 h.here
  have hbefore : (c.documents.take i).filter f.selects = [] :=
    List.filter_eq_nil_iff.2 fun e he => by rw [h.none_before e he]; exact Bool.false_ne_true
  have hfind : c.find f = c.documents[i] :: (c.documents.drop (i + 1)).filter f.selects := by
    rw [find]
    conv_lhs => rw [← List.take_append_drop i c.documents, List.drop_eq_getElem_cons hlt]
    rw [List.filter_append, hbefore, List.nil_append, List.filter_cons_of_pos h.selected]
  rw [hfind, List.head?_cons]

theorem position?_of_misses (h : c.Misses f) : c.position? f = none := by
  obtain ⟨id, hid, hkey⟩ := h
  rw [position?, hid]
  simp [hkey]

theorem position?_of_not_misses (h : ¬ c.Misses f) :
    c.position? f = c.documents.findIdx? f.selects := by
  rw [position?]
  split
  · next id hid =>
    rw [if_pos]
    by_contra hkey
    exact h ⟨id, hid, by simpa using hkey⟩
  · rfl

/-- There is a first match and it is tried, or there is none or none is tried. -/
theorem first?_cases (c : Collection) (f : Filter) :
    c.first? f = none ∧ (c.find f = [] ∨ c.Misses f) ∨
      ¬ c.Misses f ∧ ∃ i d, c.first? f = some (i, d) ∧ c.IsFirst f i d := by
  by_cases hmiss : c.Misses f
  · exact .inl ⟨by rw [first?, position?_of_misses hmiss]; rfl, .inr hmiss⟩
  rw [first?, position?_of_not_misses hmiss]
  cases hfound : c.documents.findIdx? f.selects with
  | none =>
    refine .inl ⟨rfl, .inl (List.filter_eq_nil_iff.2 fun d hd => ?_)⟩
    rw [List.findIdx?_eq_none_iff.1 hfound d hd]
    exact Bool.false_ne_true
  | some i =>
    obtain ⟨hlt, hselected, hbefore⟩ := List.findIdx?_eq_some_iff_getElem.1 hfound
    refine .inr ⟨hmiss, i, c.documents[i], by simp [hlt], by simp [hlt], hselected, ?_⟩
    intro e he
    obtain ⟨j, hj, rfl⟩ := List.mem_take_iff_getElem.1 he
    have hji : j < i := Nat.lt_of_lt_of_le hj (Nat.min_le_left _ _)
    exact Bool.eq_false_iff.2 (hbefore j hji)

/-- Keys without a zero in them are told apart by their texts. -/
theorem WellFormed.find_of_misses (h : c.WellFormed) {id : Json} (hid : f.idValue? = some id)
    (hzero : id.value.zeroless = true) (hmiss : c.Misses f) : c.find f = [] := by
  obtain ⟨id', hid', hkey⟩ := hmiss
  rw [hid] at hid'
  cases hid'
  refine List.filter_eq_nil_iff.2 fun d hd hselected => hkey ?_
  obtain ⟨key, hmem, hd⟩ := h.exists_key hd
  obtain ⟨value, hvalue, hsame⟩ := same_of_selects hid hselected (by rw [hd]; nofun)
  rw [Document.key?, hvalue, Json.Value.eq_of_same hzero hsame] at hd
  cases hd
  exact hmem

/-! ## What updates act on -/

/-- An update that can be applied to the documents acts on the first one found, and on that only. If
none is found, or no document has the text of the key asked for, it does nothing. The latter comes
to the former if no zero of binary64 is in that key. -/
theorem acts_on_first (hc : c.Reachable) (happly : ∀ d ∈ c.documents, ∃ d', u.apply d = .ok d')
    (hup : how.upsert = false) :
    ((c.find f = [] ∨ c.Misses f) ∧ c.updateFirst f u = .ok (⟨0, 0⟩, c) ∧
        c.findAndModify f u how = .ok (none, c) ∨
      ¬ c.Misses f ∧ ∃ i before after, c.IsFirst f i before ∧ (c.find f).head? = some before ∧
        u.apply before = .ok after ∧
        c.updateFirst f u =
          .ok (⟨1, if after.same before then 0 else 1⟩, c.replaceAt i before after) ∧
        c.findAndModify f u how =
          .ok (some (if how.returnNew then after else before), c.replaceAt i before after)) ∧
    ∀ id, f.idValue? = some id → id.value.zeroless = true → c.Misses f → c.find f = [] := by
  refine ⟨?_, fun id hid hzero => hc.wellFormed.find_of_misses hid hzero⟩
  obtain ⟨hnone, hwhy⟩ | ⟨hmiss, i, before, hfirst, his⟩ := c.first?_cases f
  · refine .inl ⟨hwhy, ?_, ?_⟩
    · rw [updateFirst, hnone]
    · rw [findAndModify, hnone]
      simp [hup]
  · obtain ⟨after, hafter⟩ := happly before (List.mem_of_getElem? his.here)
    refine .inr ⟨hmiss, i, before, after, his, his.head?_find, hafter, ?_, ?_⟩
    · simp only [updateFirst, hfirst, hafter, Except.ok_bind]
      rfl
    · simp only [findAndModify, hfirst, hafter, Except.ok_bind]
      rfl

/-- A zero of binary64 with a sign. -/
def signedZero (negative : Bool) : Json := .number (.float (.zero negative))

/-- One document, whose key is a zero. -/
def ofZero : Collection := ⟨"zeros", [.ofList [("id", signedZero false)]], ["0.0"], 1⟩

theorem reachable_ofZero : ofZero.Reachable :=
  .insert (.empty "zeros") (d := .ofList [("id", signedZero false)]) rfl

/-- The document is updated by its own key. -/
theorem acts_on_zero : ofZero.Reachable ∧ ∃ d, (ofZero.find (.byId (signedZero false))).head? = some d ∧
    ∃ d', ofZero.updateFirst (.byId (signedZero false)) (Update.empty.andSet "v" .null) =
      .ok (⟨1, if d'.same d then 0 else 1⟩, ofZero.replaceAt 0 d d') := by
  obtain ⟨⟨hwhy, -⟩ | ⟨-, i, d, d', hfirst, hhead, -, hupdate, -⟩, -⟩ :=
    acts_on_first (f := .byId (signedZero false)) reachable_ofZero
      (fun d _ => ⟨_, Update.apply_andSet (by decide : "v" ≠ idField) .null d⟩)
      (rfl : (⟨false, false⟩ : FindAndModify).upsert = false)
  · obtain hnone | ⟨id, hid, hkey⟩ := hwhy
    · cases hnone
    · cases hid
      exact absurd (List.mem_singleton.2 rfl) hkey
  · have hlt : i < 1 := (List.getElem?_eq_some_iff.1 hfirst.here).1
    obtain rfl : i = 0 := Nat.lt_one_iff.1 hlt
    exact ⟨reachable_ofZero, d, hhead, d', hupdate⟩

/-- The document is found for the other zero, and not updated. -/
theorem negative_zero_is_missed : ofZero.Reachable ∧
    (∀ d, ∃ d', (Update.empty.andSet "v" .null).apply d = .ok d') ∧
    ofZero.find (.byId (signedZero true)) = ofZero.documents ∧
    ofZero.updateFirst (.byId (signedZero true)) (Update.empty.andSet "v" .null) =
      .ok (⟨0, 0⟩, ofZero) ∧
    ofZero.findAndModify (.byId (signedZero true)) (Update.empty.andSet "v" .null) ⟨false, false⟩ =
      .ok (none, ofZero) := by
  refine ⟨reachable_ofZero, fun d => ⟨_, Update.apply_andSet (by decide) _ d⟩, rfl, rfl, rfl⟩

end StepLedger.Collection

import StepLedger.Proofs.Sequence.Holding

/-!
# Counters that stand

`Store.Stores` says that a counter is stored, in one document. Once it is, no request of an allocation
and no seed takes it away: it keeps its name and its note, and its value does not fall
(`Store.Raises`). A seed leaves the whole store as it is (`Stores.seed`). Where no counter is stored, a
seed makes it and an allocation finds nothing (`seed_absent`, `increment_absent`).
-/

namespace StepLedger

open Sequence

/-- An error that has its cause in the store, not in what is stored. -/
def StoreError.Unserved (e : StoreError) (collection : String) : Prop :=
  e.IsOutage ∨ Store.isName collection = false

namespace Store

variable {s s' : Store} {collection name : String} {c : Counter}

/-- A counter is stored, in one document. -/
def Stores (s : Store) (collection : String) (c : Counter) : Prop :=
  ∃ d, (s.view collection).find (.byId (.string c.id)) = [d] ∧ Counter.decode d = .ok c

/-- A counter has become another of the same name and note, with a value that is no smaller, and
there are as many documents as before. -/
structure Raises (s s' : Store) (collection : String) (c c' : Counter) : Prop where
  before : s.Stores collection c
  after : s'.Stores collection c'
  id : c'.id = c.id
  note : c'.note = c.note
  value : c.value.toInt ≤ c'.value.toInt
  length : (s'.view collection).documents.length = (s.view collection).documents.length

theorem Stores.of_alike (h : s.Stores collection c) (halike : s.Alike s') :
    s'.Stores collection c := by
  rw [Stores, halike]
  exact h

theorem Stores.raises_of_alike (h : s.Stores collection c) (halike : s.Alike s') :
    s.Raises s' collection c c :=
  ⟨h, h.of_alike halike, rfl, rfl, Int.le_refl _, by rw [halike]⟩

section Requests

variable (hs : s.WellFormed)
include hs

theorem stores_of_decode {i : Nat} {d : Document}
    (hi : (s.view collection).documents[i]? = some d) (hdecode : Counter.decode d = .ok c) :
    s.Stores collection c := by
  have hid := (Counter.decode_eq_ok_iff.1 hdecode).1
  have hfirst : (s.view collection).first? (.byId (.string c.id)) = some (i, d) :=
    (Collection.first?_eq_some_iff (hs collection).1 (Filter.idValue?_byId _)
      (Json.exact_string c.id)).2 ⟨hi, (Filter.selects_byId_iff (Json.exact_string c.id)).2 hid⟩
  refine ⟨d, ?_, hdecode⟩
  rw [Collection.find_of_pinned (hs collection).1 (Filter.idValue?_byId _) (Json.exact_string c.id),
    hfirst]
  rfl

/-- A counter is the first match of the filter on its name. -/
theorem Stores.exists_first (h : s.Stores collection c) : ∃ (i : Nat) (d : Document),
    (s.view collection).first? (.byId (.string c.id)) = some (i, d) ∧
      (s.view collection).documents[i]? = some d ∧ Counter.decode d = .ok c := by
  obtain ⟨d, hfind, hdecode⟩ := h
  rw [Collection.find_of_pinned (hs collection).1 (Filter.idValue?_byId _)
    (Json.exact_string c.id)] at hfind
  cases hfirst : (s.view collection).first? (.byId (.string c.id)) with
  | none => rw [hfirst] at hfind; cases hfind
  | some found =>
    obtain ⟨i, d'⟩ := found
    rw [hfirst] at hfind
    obtain rfl : d' = d := by simpa using hfind
    exact ⟨i, d', rfl, (Collection.first?_eq_some hfirst).1, hdecode⟩

omit hs in
/-- A counter is given a value that is no smaller. -/
theorem raises_of_becomes (h : s.Stores collection c) (hs' : s'.WellFormed) {i : Nat} {d : Document}
    (hi : (s.view collection).documents[i]? = some d) (hdecode : Counter.decode d = .ok c)
    {value : Int64} (hle : c.value.toInt ≤ value.toInt)
    (hbecomes : s.Becomes s' collection
      ((s.view collection).documents.set i (d.set valueField (.ofInt64 value)))) :
    s.Raises s' collection c { c with value } := by
  have hi' : (s'.view collection).documents[i]? = some (d.set valueField (.ofInt64 value)) := by
    rw [hbecomes.documents, List.getElem?_set_self (List.getElem?_eq_some_iff.1 hi).1]
  exact ⟨h, stores_of_decode hs' hi' (Counter.decode_set_value hdecode value), rfl, rfl, hle,
    by rw [hbecomes.documents, List.length_set]⟩

/-! ## Where the counter is stored -/

/-- To add to a counter raises it, or leaves it. -/
theorem Stores.increment (h : s.Stores collection c) {result : Except StoreError (Option Document)}
    (hanswer : s.findAndModify collection (.byId (.string c.id)) (Update.empty.andInc valueField 1)
      ⟨true, false⟩ = (result, s')) : ∃ c', s.Raises s' collection c c' := by
  have hs' := hs.of_answer (.findAndModify _ _ _ _) hanswer
  cases result with
  | error e => exact ⟨c, h.raises_of_alike (findAndModify_error hs hanswer).1⟩
  | ok found =>
    obtain ⟨i, d, hfirst, hi, hdecode⟩ := h.exists_first hs
    obtain ⟨i, before, after, hfirst', happly, -, hbecomes | ⟨-, halike⟩⟩ | ⟨hnone, -⟩ :=
      findAndModify_ok hs hanswer
    · cases hfirst.symm.trans hfirst'
      rw [Update.apply_increment (by decide),
        Update.increment_one (Counter.decode_eq_ok_iff.1 hdecode).2.1] at happly
      cases hnext : Update.addChecked c.value 1 with
      | none => rw [hnext] at happly; cases happly
      | some next =>
        rw [hnext] at happly
        cases happly
        have hsum := Update.addChecked_eq_some_iff.1 hnext
        have hone : (1 : Int64).toInt = 1 := rfl
        exact ⟨_, raises_of_becomes h hs' hi hdecode (by omega) hbecomes⟩
    · exact ⟨c, h.raises_of_alike halike⟩
    · cases hfirst.symm.trans hnone

/-- To write the successor of a value on the condition that it is stored raises a counter, or leaves
it. -/
theorem Stores.swap (h : s.Stores collection c) {observed next : Int64}
    (hnext : Update.addChecked observed 1 = some next) {result : Except StoreError UpdateResult}
    (hanswer : s.updateFirst collection
      ((Filter.byId (.string c.id)).and valueField (.ofInt64 observed))
      (Update.empty.andSet valueField (.ofInt64 next)) = (result, s')) :
    ∃ c', s.Raises s' collection c c' := by
  have hs' := hs.of_answer (.updateFirst _ _ _) hanswer
  cases result with
  | error e => exact ⟨c, h.raises_of_alike (updateFirst_error hs hanswer)⟩
  | ok result =>
    obtain ⟨-, -, halike⟩ | ⟨i, d, after, hfirst, happly, -, hbecomes | ⟨-, halike⟩⟩ :=
      updateFirst_ok hs hanswer
    · exact ⟨c, h.raises_of_alike halike⟩
    · obtain ⟨hi, hsel⟩ := Collection.first?_eq_some hfirst
      obtain ⟨hid, hobserved⟩ := (Filter.selects_byId_and_iff (Json.exact_string c.id)
        (Json.exact_ofInt64 observed)).1 hsel
      -- the document that is written is that of the counter
      obtain ⟨j, d', hfirst', -, hdecode⟩ := h.exists_first hs
      have hsame : (s.view collection).first? (.byId (.string c.id)) = some (i, d) :=
        (Collection.first?_eq_some_iff (hs collection).1 (Filter.idValue?_byId _)
          (Json.exact_string c.id)).2 ⟨hi, (Filter.selects_byId_iff (Json.exact_string c.id)).2 hid⟩
      cases hsame.symm.trans hfirst'
      have hvalue : c.value = observed := Json.Value.ofInt64_inj.1
        (Option.some.inj ((Counter.decode_eq_ok_iff.1 hdecode).2.1.symm.trans hobserved))
      rw [Update.apply_andSet (by decide)] at happly
      cases happly
      have hsum := Update.addChecked_eq_some_iff.1 hnext
      have hone : (1 : Int64).toInt = 1 := rfl
      have hle : c.value.toInt ≤ next.toInt := by rw [hvalue]; omega
      exact ⟨_, raises_of_becomes h hs' hi hdecode hle hbecomes⟩
    · exact ⟨c, h.raises_of_alike halike⟩

omit hs in
/-- To seed a counter that is stored changes nothing at all and answers with it. -/
theorem Stores.seed (h : s.Stores collection c) (hs : s.Reachable) {initial : Int64} {note : String}
    {result : Except StoreError (Option Document)}
    (hanswer : s.findAndModify collection (.byId (.string c.id)) (Counter.seeding initial note)
      ⟨true, true⟩ = (result, s')) :
    s' = s ∧ ((∃ d, result = .ok (some d) ∧ Counter.decode d = .ok c) ∨
      ∃ e, result = .error e ∧ e.Unserved collection) := by
  obtain ⟨i, d, hfirst, hi, hdecode⟩ := h.exists_first hs.wellFormed
  have happly : (Counter.seeding initial note).apply d = .ok d :=
    Update.apply_setOnInsert (Counter.get?_id_seeding initial note) d
  constructor
  · have hidle := findAndModify_idles hs hanswer fun found after _ hop => by
      rw [Collection.findAndModify, hfirst] at hop
      dsimp only at hop
      rw [happly, Except.ok_bind, Collection.replaceAt_self hi] at hop
      cases hop
      rfl
    exact hidle.eq_of_isSome (isSome_of_getElem? hi)
  · cases result with
    | error e => exact .inr ⟨e, rfl, (seed_error hs.wellFormed hanswer).imp_right And.right⟩
    | ok found =>
      obtain ⟨i, before, after, hfirst', hafter, rfl, -⟩ | ⟨hnone, -⟩ :=
        findAndModify_ok hs.wellFormed hanswer
      · cases hfirst.symm.trans hfirst'
        cases happly.symm.trans hafter
        exact .inl ⟨d, rfl, hdecode⟩
      · cases hfirst.symm.trans hnone

/-! ## Where there is no counter -/

omit hs in
/-- To add to a counter that is not there changes nothing and finds nothing. -/
theorem increment_absent (hs : s.Reachable) (hnone : s.counter? collection name = none)
    {result : Except StoreError (Option Document)}
    (hanswer : s.findAndModify collection (.byId (.string name)) (Update.empty.andInc valueField 1)
      ⟨true, false⟩ = (result, s')) :
    s' = s ∧ (result = .ok none ∨ ∃ e, result = .error e ∧ e.Unserved collection) := by
  have hop : (s.view collection).findAndModify (.byId (.string name))
      (Update.empty.andInc valueField 1) ⟨true, false⟩ = .ok (none, s.view collection) := by
    rw [Collection.findAndModify, (counter?_eq_none_iff hs.wellFormed).1 hnone]
    rfl
  constructor
  · refine (findAndModify_idles hs hanswer fun found after _ hop' => ?_).eq
    cases hop.symm.trans hop'
    rfl
  · cases result with
    | error e =>
      obtain ⟨-, hempty | hkind | hname | herror⟩ := findAndModify_error hs.wellFormed hanswer
      · exact absurd hempty (by simp [Update.isEmpty, Update.andInc, Update.empty])
      · exact .inr ⟨e, rfl, .inl hkind⟩
      · exact .inr ⟨e, rfl, .inr hname⟩
      · cases hop.symm.trans herror
    | ok found =>
      obtain ⟨i, before, after, hfirst, -⟩ | ⟨-, ⟨-, rfl, -⟩ | ⟨hup, -⟩⟩ :=
        findAndModify_ok hs.wellFormed hanswer
      · cases ((counter?_eq_none_iff hs.wellFormed).1 hnone).symm.trans hfirst
      · exact .inl rfl
      · cases hup

omit hs in
/-- Nothing is read of a counter that is not there. -/
theorem find_absent (hnone : s.counter? collection name = none) :
    s.find collection (.byId (.string name)) = (.ok [], s) ∨
      ∃ e, s.find collection (.byId (.string name)) = (.error e, s) ∧ e.Unserved collection := by
  obtain ⟨e, hcause, h⟩ | h := find_eq s collection (.byId (.string name))
  · exact .inr ⟨e, h, hcause.imp_left .inl⟩
  · rw [List.head?_eq_none_iff.1 hnone] at h
    exact .inl h

/-- To seed a counter that is not there makes it, or the store is in the way. -/
theorem seed_absent (hnone : s.counter? collection name = none) {initial : Int64} {note : String}
    {result : Except StoreError (Option Document)}
    (hanswer : s.findAndModify collection (.byId (.string name)) (Counter.seeding initial note)
      ⟨true, true⟩ = (result, s')) :
    (s.Alike s' ∧ ∃ e, result = .error e ∧ e.Unserved collection) ∨
      ∃ d, result = .ok (some d) ∧ Counter.decode d = .ok ⟨name, initial, note⟩ ∧
        s'.Stores collection ⟨name, initial, note⟩ ∧
        s.Becomes s' collection ((s.view collection).documents ++ [d]) := by
  have hs' := hs.of_answer (.findAndModify _ _ _ _) hanswer
  cases result with
  | error e =>
    exact .inl ⟨(findAndModify_error hs hanswer).1, e, rfl,
      (seed_error hs hanswer).imp_right And.right⟩
  | ok found =>
    obtain ⟨d, rfl, hdecode, hcounter, hbecomes⟩ := seed_new hs hnone hanswer
    obtain ⟨i, hi, -⟩ := (counter?_eq_some_iff hs').1 hcounter
    exact .inr ⟨d, rfl, hdecode, stores_of_decode hs' hi hdecode, hbecomes⟩

end Requests

end Store

end StepLedger

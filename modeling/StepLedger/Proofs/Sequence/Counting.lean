import StepLedger.Proofs.Store.Outcome
import StepLedger.Sequence.Allocation

/-!
# Counters in a store

`Store.counter?` is the document of a counter and `Store.lastValue?` the value in it, if it is well
formed. The requests of an allocation are about one counter. They read it (`find_counter`), add to it
(`increment_ok`) or write it on a condition (`swap_ok`), and to seed a counter that is there changes
nothing (`seed_ok`). Each that changes something advances the counter and leaves all else as it is
(`Advances`).
-/

namespace StepLedger

open Sequence

/-! ## The document of a counter -/

namespace Sequence.Counter

/-- A document is a counter if name, value and note are what they should be. -/
theorem decode_eq_ok_iff {d : Document} {c : Counter} :
    decode d = .ok c ↔ d.get? idField = some (.string c.id) ∧
      d.get? valueField = some (.number (.ofInt64 c.value)) ∧
      (d.get? noteField = none ∧ c.note = "" ∨ d.get? noteField = some (.string c.note)) := by
  unfold decode
  simp only [Except.bind_eq_ok, Document.field?_eq_ok, DecodeError.require_eq_ok,
    Json.Value.toText_eq_ok_iff, Json.Value.toInt64_eq_ok_iff, pure, Except.pure, Except.ok.injEq]
  constructor
  · rintro ⟨_, hid, note, hnote, _, hvalue, id, rfl, value, rfl, rfl⟩
    obtain ⟨-, h⟩ | ⟨_, _, hid, rfl, h⟩ := hid <;> cases h
    obtain ⟨-, h⟩ | ⟨_, _, hvalue, rfl, h⟩ := hvalue <;> cases h
    refine ⟨hid, hvalue, ?_⟩
    obtain ⟨hnote, rfl⟩ | ⟨_, _, hnote, rfl, rfl⟩ := hnote
    · exact .inl ⟨hnote, rfl⟩
    · exact .inr hnote
  · rintro ⟨hid, hvalue, hnote⟩
    obtain ⟨id, value, note⟩ := c
    rcases hnote with ⟨hnote, rfl⟩ | hnote
    · exact ⟨_, .inr ⟨_, _, hid, rfl, rfl⟩, _, .inl ⟨hnote, rfl⟩, _,
        .inr ⟨_, _, hvalue, rfl, rfl⟩, _, rfl, _, rfl, rfl⟩
    · exact ⟨_, .inr ⟨_, _, hid, rfl, rfl⟩, _, .inr ⟨_, _, hnote, rfl, rfl⟩, _,
        .inr ⟨_, _, hvalue, rfl, rfl⟩, _, rfl, _, rfl, rfl⟩

/-- A counter with another value is a counter. -/
theorem decode_set_value {d : Document} {c : Counter} (h : decode d = .ok c) (v : Int64) :
    decode (d.set valueField (.ofInt64 v)) = .ok { c with value := v } := by
  obtain ⟨hid, -, hnote⟩ := decode_eq_ok_iff.1 h
  refine decode_eq_ok_iff.2 ⟨?_, Document.get?_set_self d _ _, ?_⟩
  · rw [Document.get?_set_ne d (by decide), hid]
  · rw [Document.get?_set_ne d (by decide)]
    exact hnote

/-- A document with another value is not the same. -/
theorem not_same_set_value {d : Document} {v next : Int64}
    (hv : d.get? valueField = some (.number (.ofInt64 v))) (hne : next ≠ v) :
    ¬ (d.set valueField (.ofInt64 next)).same d = true := by
  intro hsame
  have h := Document.get?_eq_of_same (Json.exact_ofInt64 v) hsame hv
  rw [Document.get?_set_self] at h
  exact hne (Json.Value.ofInt64_inj.1 (Option.some.inj h))

/-- The update that creates a counter. -/
def seeding (initial : Int64) (note : String) : Update :=
  (Update.empty.andSetOnInsert valueField (.ofInt64 initial)).andSetOnInsert noteField (.string note)

/-- To seed a counter sets no key. -/
theorem get?_id_seeding (initial : Int64) (note : String) :
    (seeding initial note).setOnInsert.get? idField = none := by
  show ((Document.empty.set valueField _).set noteField _).get? idField = none
  rw [Document.get?_set_ne _ (by decide), Document.get?_set_ne _ (by decide), Document.get?_empty]

theorem isEmpty_seeding (initial : Int64) (note : String) :
    (seeding initial note).isEmpty = false := by
  have hnote : (seeding initial note).setOnInsert.get? noteField = some (.string note) :=
    Document.get?_set_self _ noteField _
  cases hfields : (seeding initial note).setOnInsert.fields with
  | nil => rw [Document.get?, hfields] at hnote; cases hnote
  | cons field fields => simp [Update.isEmpty, hfields]

/-- What a seed creates. -/
theorem create_seeding (name : String) (initial : Int64) (note : String) :
    (seeding initial note).create (.byId (.string name)) = .ok
      ((Document.ofList (Filter.byId (.string name)).clauses).overlay
        (seeding initial note).setOnInsert) := by
  have htouch : (seeding initial note).touchesId = false := by
    rw [Update.touchesId, get?_id_seeding]
    rfl
  rw [Update.create, htouch]
  exact Update.apply_setOnInsert (get?_id_seeding initial note) _

/-- What is created is a counter. -/
theorem decode_of_create {name : String} {initial : Int64} {note : String} {d : Document}
    (h : (seeding initial note).create (.byId (.string name)) = .ok d) :
    decode d = .ok ⟨name, initial, note⟩ := by
  have hid := Update.get?_id_of_create h
  obtain rfl := Except.ok.inj ((create_seeding name initial note).symm.trans h)
  have hvalue : (seeding initial note).setOnInsert.get? valueField =
      some (.number (.ofInt64 initial)) :=
    (Document.get?_set_ne _ (by decide) _).trans (Document.get?_set_self _ valueField _)
  have hnote : (seeding initial note).setOnInsert.get? noteField = some (.string note) :=
    Document.get?_set_self _ noteField _
  refine decode_eq_ok_iff.2 ⟨hid, ?_, .inr ?_⟩
  · rw [Document.get?_overlay, hvalue, Option.some_or]
  · rw [Document.get?_overlay, hnote, Option.some_or]

/-- What a client does to seed a counter. -/
theorem seed_eq {collection name : String} (hname : checkName name = .ok ()) (initial : Int64)
    (note : String) : seed collection name initial note =
    .ask (.findAndModify collection (.byId (.string name)) (seeding initial note) ⟨true, true⟩)
      fun (found : Option Document) => Program.ofExcept (ofFound collection name found) := by
  rw [seed, hname]
  rfl

end Sequence.Counter

namespace Store

/-- The document of the counter of a sequence. -/
def counter? (s : Store) (collection name : String) : Option Document :=
  ((s.view collection).find (.byId (.string name))).head?

/-- The last value that a counter handed out, if it is well formed. -/
def lastValue? (s : Store) (collection name : String) : Option Int64 :=
  (s.counter? collection name).bind fun d => (Counter.decode d).toOption.map (·.value)

theorem lastValue?_eq_some_iff {s : Store} {collection name : String} {v : Int64} :
    s.lastValue? collection name = some v ↔
      ∃ d c, s.counter? collection name = some d ∧ Counter.decode d = .ok c ∧ c.value = v := by
  unfold lastValue?
  cases s.counter? collection name with
  | none => simp
  | some d =>
    cases hd : Counter.decode d with
    | error e => simp [hd, Except.toOption]
    | ok c => simp [hd, Except.toOption]

theorem counter?_of_alike {s s' : Store} (h : s.Alike s') (collection name : String) :
    s'.counter? collection name = s.counter? collection name := by
  rw [counter?, counter?, h]

theorem lastValue?_of_alike {s s' : Store} (h : s.Alike s') (collection name : String) :
    s'.lastValue? collection name = s.lastValue? collection name := by
  rw [lastValue?, lastValue?, counter?_of_alike h]

theorem lastValue?_of_documents {s s' : Store} {collection : String}
    (h : (s'.view collection).documents = (s.view collection).documents) (name : String) :
    s'.lastValue? collection name = s.lastValue? collection name := by
  rw [lastValue?, lastValue?, counter?, counter?, Collection.find, Collection.find, h]

theorem counter?_of_documents_nil {s : Store} {collection name : String}
    (h : (s.view collection).documents = []) : s.counter? collection name = none := by
  rw [counter?, Collection.find, h]
  rfl

/-- The counter of a sequence has the value `v` in the store after, and all else is as before. -/
structure Advances (s s' : Store) (collection name : String) (v : Int64) : Prop where
  value : s'.lastValue? collection name = some v
  counters : ∀ other, other ≠ name → s'.counter? collection other = s.counter? collection other
  others : ∀ other, other ≠ collection → s'.view other = s.view other

/-! ## The document under a name -/

/-- The store after is alike, or one document with the name for a key has changed or come up. -/
inductive Touches (s s' : Store) (collection name : String) : Prop
  | same (h : s.Alike s')
  | changed {i : Nat} {before after : Document}
    (hi : (s.view collection).documents[i]? = some before)
    (hbefore : before.get? idField = some (.string name))
    (hafter : after.get? idField = some (.string name))
    (h : s.Becomes s' collection ((s.view collection).documents.set i after))
  | added {created : Document} (hcreated : created.get? idField = some (.string name))
    (h : s.Becomes s' collection ((s.view collection).documents ++ [created]))

section Touches

variable {s s' : Store} {collection name : String}

theorem touches_updateFirst (hs : s.WellFormed) {f : Filter} {u : Update}
    (hf : ∀ d, f.selects d = true → d.get? idField = some (.string name)) :
    s.Touches (s.updateFirst collection f u).2 collection name := by
  cases hupdate : s.updateFirst collection f u with
  | mk result s' =>
    cases result with
    | error e => exact .same (updateFirst_error hs hupdate)
    | ok result =>
      obtain ⟨-, -, halike⟩ | ⟨i, before, after, hfirst, happly, -, hbecomes | ⟨-, halike⟩⟩ :=
        updateFirst_ok hs hupdate
      · exact .same halike
      · obtain ⟨hi, hsel⟩ := Collection.first?_eq_some hfirst
        exact .changed hi (hf before hsel)
          ((Update.get?_id_of_apply happly).trans (hf before hsel)) hbecomes
      · exact .same halike

theorem touches_findAndModify (hs : s.WellFormed) {u : Update} {how : FindAndModify} :
    s.Touches (s.findAndModify collection (.byId (.string name)) u how).2 collection name := by
  cases hmodify : s.findAndModify collection (.byId (.string name)) u how with
  | mk result s' =>
    cases result with
    | error e => exact .same (findAndModify_error hs hmodify).1
    | ok result =>
      obtain ⟨i, before, after, hfirst, happly, -, hbecomes | ⟨-, halike⟩⟩ |
          ⟨-, ⟨-, -, halike⟩ | ⟨-, created, hcreate, hbecomes, -⟩⟩ := findAndModify_ok hs hmodify
      · obtain ⟨hi, hsel⟩ := Collection.first?_eq_some hfirst
        have hid := (Filter.selects_byId_iff (Json.exact_string name)).1 hsel
        exact .changed hi hid ((Update.get?_id_of_apply happly).trans hid) hbecomes
      · exact .same halike
      · exact .same halike
      · exact .added (Update.get?_id_of_create hcreate) hbecomes

theorem Touches.others (h : s.Touches s' collection name) {other : String}
    (hne : other ≠ collection) : s'.view other = s.view other := by
  cases h with
  | same h => exact h other
  | changed _ _ _ h => exact h.others other hne
  | added _ h => exact h.others other hne

/-- Counters of other names are as before. -/
theorem Touches.counter?_eq (h : s.Touches s' collection name) {other : String}
    (hne : other ≠ name) : s'.counter? collection other = s.counter? collection other := by
  have hnot : ∀ {d : Document}, d.get? idField = some (.string name) →
      (Filter.byId (.string other)).selects d = false := by
    intro d hd
    rw [← Bool.not_eq_true, Filter.selects_byId_iff (Json.exact_string other), hd]
    intro heq
    exact hne (by simpa [Json.string] using heq.symm)
  cases h with
  | same h => exact counter?_of_alike h collection other
  | changed hi hbefore hafter h =>
    rw [counter?, counter?, Collection.find, Collection.find, h.documents,
      Collection.filter_set_of_not hi (hnot hbefore) (hnot hafter)]
  | added hcreated h =>
    rw [counter?, counter?, Collection.find, Collection.find, h.documents, List.filter_append,
      List.filter_singleton, hnot hcreated]
    simp

end Touches

/-! ## Requests of a counter -/

section Requests

variable {s s' : Store} (hs : s.WellFormed) {collection name : String}
include hs

/-- A counter is the first match of the filter on its name. -/
theorem counter?_eq_some_iff {d : Document} : s.counter? collection name = some d ↔
    ∃ i : Nat, (s.view collection).documents[i]? = some d ∧ d.get? idField = some (.string name) := by
  rw [counter?, Collection.head?_find_of_pinned (hs collection).1 (Filter.idValue?_byId _)
    (Json.exact_string name), Option.map_eq_some_iff]
  constructor
  · rintro ⟨⟨i, _⟩, hfirst, rfl⟩
    obtain ⟨hi, hsel⟩ := Collection.first?_eq_some hfirst
    exact ⟨i, hi, (Filter.selects_byId_iff (Json.exact_string name)).1 hsel⟩
  · rintro ⟨i, hi, hid⟩
    refine ⟨(i, d), ?_, rfl⟩
    exact (Collection.first?_eq_some_iff (hs collection).1 (Filter.idValue?_byId _)
      (Json.exact_string name)).2 ⟨hi, (Filter.selects_byId_iff (Json.exact_string name)).2 hid⟩

/-- There is no counter if nothing matches the filter on its name. -/
theorem counter?_eq_none_iff : s.counter? collection name = none ↔
    (s.view collection).first? (.byId (.string name)) = none := by
  rw [counter?, Collection.head?_find_of_pinned (hs collection).1 (Filter.idValue?_byId _)
    (Json.exact_string name), Option.map_eq_none_iff]

omit hs in
/-- To replace the document of a counter by another with its key advances it. -/
theorem advances_of_becomes (hs' : s'.WellFormed) {i : Nat} {before after : Document}
    {counter : Counter} (hi : (s.view collection).documents[i]? = some before)
    (hbefore : before.get? idField = some (.string name))
    (hafter : after.get? idField = some (.string name)) (hdecode : Counter.decode after = .ok counter)
    (h : s.Becomes s' collection ((s.view collection).documents.set i after)) :
    s.Advances s' collection name counter.value := by
  have hi' : (s'.view collection).documents[i]? = some after := by
    rw [h.documents, List.getElem?_set_self (List.getElem?_eq_some_iff.1 hi).1]
  refine ⟨?_, fun other hne => ?_, h.others⟩
  · exact lastValue?_eq_some_iff.2
      ⟨after, counter, (counter?_eq_some_iff hs').2 ⟨i, hi', hafter⟩, hdecode, rfl⟩
  · exact (Touches.changed hi hbefore hafter h).counter?_eq hne

variable {v : Int64} (hv : s.lastValue? collection name = some v)
include hv

omit hs in
/-- A counter is read as it is. -/
theorem find_counter :
    (∃ e, (e.kind = .storeUnavailable ∨ isName collection = false) ∧
        s.find collection (.byId (.string name)) = (.error e, s)) ∨
      ∃ found d counter, s.find collection (.byId (.string name)) = (.ok found, s) ∧
        found.head? = some d ∧ Counter.decode d = .ok counter ∧ counter.value = v := by
  obtain ⟨d, counter, hd, hdecode, hvalue⟩ := lastValue?_eq_some_iff.1 hv
  obtain ⟨e, hcause, h⟩ | h := find_eq s collection (.byId (.string name))
  · exact .inl ⟨e, hcause, h⟩
  · exact .inr ⟨_, d, counter, h, hd, hdecode, hvalue⟩

/-- A counter is the first match of the filter on its name. -/
theorem exists_counter : ∃ (i : Nat) (d : Document) (counter : Counter),
    (s.view collection).first? (.byId (.string name)) = some (i, d) ∧
      (s.view collection).documents[i]? = some d ∧ d.get? idField = some (.string name) ∧
      Counter.decode d = .ok counter ∧ counter.value = v := by
  obtain ⟨d, counter, hd, hdecode, hvalue⟩ := lastValue?_eq_some_iff.1 hv
  obtain ⟨i, hi, hid⟩ := (counter?_eq_some_iff hs).1 hd
  refine ⟨i, d, counter, ?_, hi, hid, hdecode, hvalue⟩
  exact (Collection.first?_eq_some_iff (hs collection).1 (Filter.idValue?_byId _)
    (Json.exact_string name)).2 ⟨hi, (Filter.selects_byId_iff (Json.exact_string name)).2 hid⟩

/-- A collection with a counter has documents. -/
theorem documents_ne_nil_of_lastValue? : (s.view collection).documents ≠ [] := by
  obtain ⟨i, d, counter, -, hi, -⟩ := exists_counter hs hv
  intro hnone
  rw [hnone] at hi
  cases hi

theorem increment_error {e : StoreError} (h : s.findAndModify collection (.byId (.string name))
      (Update.empty.andInc valueField 1) ⟨true, false⟩ = (.error e, s')) :
    s.Alike s' ∧ (e.IsOutage ∨ isName collection = false ∨
      Update.addChecked v 1 = none) := by
  obtain ⟨halike, hempty | hkind | hname | hop⟩ := findAndModify_error hs h
  · exact absurd hempty (by simp [Update.isEmpty, Update.andInc, Update.empty])
  · exact ⟨halike, .inl hkind⟩
  · exact ⟨halike, .inr (.inl hname)⟩
  · refine ⟨halike, .inr (.inr ?_)⟩
    obtain ⟨i, d, counter, hfirst, -, -, hdecode, rfl⟩ := exists_counter hs hv
    cases hnext : Update.addChecked counter.value 1 with
    | none => rfl
    | some next =>
      rw [Collection.findAndModify, hfirst] at hop
      dsimp only at hop
      rw [Update.apply_increment (by decide),
        Update.increment_one (Counter.decode_eq_ok_iff.1 hdecode).2.1, hnext] at hop
      cases hop

/-- To add to a counter answers with the counter after that. -/
theorem increment_ok {found : Option Document} (h : s.findAndModify collection (.byId (.string name))
      (Update.empty.andInc valueField 1) ⟨true, false⟩ = (.ok found, s')) :
    ∃ d counter, found = some d ∧ Counter.decode d = .ok counter ∧
      Update.addChecked v 1 = some counter.value ∧
      s.Advances s' collection name counter.value := by
  have hs' := hs.of_answer (.findAndModify _ _ _ _) h
  obtain ⟨i, d, counter, hfirst, hi, hid, hdecode, rfl⟩ := exists_counter hs hv
  have hvalue := (Counter.decode_eq_ok_iff.1 hdecode).2.1
  obtain ⟨i, before, after, hfirst', happly, rfl, heffect⟩ | ⟨hnone, -⟩ := findAndModify_ok hs h
  · rw [hfirst] at hfirst'
    cases hfirst'
    rw [Update.apply_increment (by decide), Update.increment_one hvalue] at happly
    cases hnext : Update.addChecked counter.value 1 with
    | none => rw [hnext] at happly; cases happly
    | some next =>
      rw [hnext] at happly
      cases happly
      have hafter := Counter.decode_set_value hdecode next
      refine ⟨_, _, rfl, hafter, rfl, ?_⟩
      rcases heffect with hbecomes | ⟨hsame, -⟩
      · exact advances_of_becomes hs' hi hid ((Document.get?_set_ne d (by decide) _).trans hid)
          hafter hbecomes
      · exact absurd hsame (Counter.not_same_set_value hvalue (Update.ne_of_addChecked_one hnext))
  · rw [hfirst] at hnone; cases hnone

omit hv in
/-- To write a counter on a condition fails only where a store refuses. -/
theorem swap_error {observed next : Int64} {e : StoreError}
    (h : s.updateFirst collection ((Filter.byId (.string name)).and valueField (.ofInt64 observed))
      (Update.empty.andSet valueField (.ofInt64 next)) = (.error e, s')) :
    s.Alike s' ∧ (e.IsOutage ∨ isName collection = false) := by
  have hne : valueField ≠ idField := by decide
  exact ⟨updateFirst_error hs h, kind_of_updateFirst hs
    (Update.isEmpty_eq_false (Document.get?_set_self _ valueField _))
    (fun d => ⟨_, Update.apply_andSet hne _ d⟩) h⟩

/-- To write a counter on a condition does so if the condition holds, and nothing otherwise. -/
theorem swap_ok {observed next : Int64} (hne : next ≠ observed) {result : UpdateResult}
    (h : s.updateFirst collection ((Filter.byId (.string name)).and valueField (.ofInt64 observed))
      (Update.empty.andSet valueField (.ofInt64 next)) = (.ok result, s')) :
    result.matched = 0 ∧ observed ≠ v ∧ s.Alike s' ∨
      result.matched = 1 ∧ observed = v ∧ s.Advances s' collection name next := by
  have hs' := hs.of_answer (.updateFirst _ _ _) h
  obtain ⟨i, d, counter, -, hi, hid, hdecode, rfl⟩ := exists_counter hs hv
  have hvalue := (Counter.decode_eq_ok_iff.1 hdecode).2.1
  have hsel : ∀ d, ((Filter.byId (.string name)).and valueField (.ofInt64 observed)).selects d =
      true ↔ d.get? idField = some (.string name) ∧
        d.get? valueField = some (.number (.ofInt64 observed)) := fun d =>
    Filter.selects_byId_and_iff (Json.exact_string name) (Json.exact_ofInt64 observed)
  obtain ⟨hnone, hmatched, halike⟩ | ⟨j, before, after, hfirst, happly, hmatched, heffect⟩ :=
    updateFirst_ok hs h
  · refine .inl ⟨hmatched, ?_, halike⟩
    rintro rfl
    rw [Collection.first?_eq_none_iff (hs collection).1 (Filter.idValue?_byId_and _ _ _)
      (Json.exact_string name)] at hnone
    have := hnone d (List.mem_of_getElem? hi)
    rw [(hsel d).2 ⟨hid, hvalue⟩] at this
    cases this
  · obtain ⟨hj, hbefore⟩ := Collection.first?_eq_some hfirst
    obtain ⟨hid', hvalue'⟩ := (hsel before).1 hbefore
    have hij : i = j :=
      (hs collection).1.index_eq hi hj (by rw [Document.key?, Document.key?, hid, hid'])
    subst hij
    rw [hi] at hj
    cases hj
    have hobserved : observed = counter.value :=
      (Json.Value.ofInt64_inj.1 (Option.some.inj (hvalue.symm.trans hvalue'))).symm
    subst hobserved
    rw [Update.apply_andSet (by decide)] at happly
    cases happly
    refine .inr ⟨hmatched, rfl, ?_⟩
    rcases heffect with hbecomes | ⟨hsame, -⟩
    · exact advances_of_becomes hs' hi hid ((Document.get?_set_ne d (by decide) _).trans hid)
        (Counter.decode_set_value hdecode next) hbecomes
    · exact absurd hsame (Counter.not_same_set_value hvalue hne)

/-- To seed a counter that is there answers with it and changes nothing. -/
theorem seed_ok {fields : Document} (hid : fields.get? idField = none) {found : Option Document}
    (h : s.findAndModify collection (.byId (.string name)) { Update.empty with setOnInsert := fields }
      ⟨true, true⟩ = (.ok found, s')) :
    s.Alike s' ∧ ∃ d counter, found = some d ∧ Counter.decode d = .ok counter ∧
      counter.value = v := by
  obtain ⟨i, d, counter, hfirst, hi, -, hdecode, hvalue⟩ := exists_counter hs hv
  cases hempty : ({ Update.empty with setOnInsert := fields } : Update).isEmpty with
  | true => rw [findAndModify, if_pos hempty] at h; cases h
  | false =>
    have hserved := served_findAndModify hs collection (.byId (.string name)) ⟨true, true⟩ hempty
    rw [h] at hserved
    obtain ⟨c, hop, heffect⟩ := hserved.of_ok
    rw [Collection.findAndModify, hfirst] at hop
    dsimp only at hop
    rw [Update.apply_setOnInsert hid] at hop
    cases hop
    refine ⟨?_, d, counter, rfl, hdecode, hvalue⟩
    rcases heffect with ⟨hview, hbecomes⟩ | ⟨-, halike⟩
    · exact alike_of_view (hview.trans (Collection.replaceAt_self hi)) hbecomes.others
    · exact halike

/-- To seed a counter that is there writes nothing. -/
theorem seed_idle {a : Archive} (ha : s.archive = some a) (hcheck : s.check collection = .ok ())
    (initial : Int64) (note : String) : ∃ d counter,
      s.findAndModify collection (.byId (.string name)) (Counter.seeding initial note) ⟨true, true⟩ =
        (.ok (some d), s) ∧ Counter.decode d = .ok counter ∧ counter.id = name ∧
      counter.value = v := by
  obtain ⟨i, d, counter, hfirst, hi, hid, hdecode, hvalue⟩ := exists_counter hs hv
  have hname : counter.id = name := by
    have htext := (Counter.decode_eq_ok_iff.1 hdecode).1.symm.trans hid
    simpa [Json.string] using htext
  have hthere : s.collection? collection = some (s.view collection) := by
    cases h : s.collection? collection with
    | none => rw [view, h] at hi; cases hi
    | some c => rw [view, h]; rfl
  have hop : orUnchanged (·.findAndModify (.byId (.string name)) (Counter.seeding initial note)
      ⟨true, true⟩) (s.view collection) = (.ok (some d), s.view collection) := by
    refine orUnchanged_of_ok ?_
    have happly := Update.apply_setOnInsert (Counter.get?_id_seeding initial note) d
    rw [Collection.findAndModify, hfirst]
    dsimp only
    rw [show (Counter.seeding initial note).apply d = .ok d from happly, Except.ok_bind,
      Collection.replaceAt_self hi]
    rfl
  refine ⟨d, counter, ?_, hdecode, hname, hvalue⟩
  rw [findAndModify, if_neg (by simp [Counter.isEmpty_seeding]), mutate, hcheck, hthere]
  dsimp only
  rw [hop, commit, ha]
  exact if_pos rfl

/-! ## New counters -/

omit hv in
/-- To seed a counter that is not there makes it. -/
theorem seed_new (hnone : s.counter? collection name = none) {initial : Int64} {note : String}
    {found : Option Document} (h : s.findAndModify collection (.byId (.string name))
      (Counter.seeding initial note) ⟨true, true⟩ = (.ok found, s')) :
    ∃ d, found = some d ∧ Counter.decode d = .ok ⟨name, initial, note⟩ ∧
      s'.counter? collection name = some d ∧
      s.Becomes s' collection ((s.view collection).documents ++ [d]) := by
  have hs' := hs.of_answer (.findAndModify _ _ _ _) h
  obtain ⟨i, before, after, hfirst, -⟩ | ⟨-, ⟨hup, -⟩ | ⟨-, d, hcreate, hbecomes, rfl⟩⟩ :=
    findAndModify_ok hs h
  · rw [(counter?_eq_none_iff hs).1 hnone] at hfirst
    cases hfirst
  · cases hup
  · have hdecode := Counter.decode_of_create hcreate
    refine ⟨d, if_pos rfl, hdecode, (counter?_eq_some_iff hs').2 ?_, hbecomes⟩
    refine ⟨(s.view collection).documents.length, ?_, (Counter.decode_eq_ok_iff.1 hdecode).1⟩
    rw [hbecomes.documents, List.getElem?_concat_length]

end Requests

end Store

end StepLedger

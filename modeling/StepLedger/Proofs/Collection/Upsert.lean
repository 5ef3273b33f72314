import StepLedger.Proofs.Collection.PrimaryKey
import StepLedger.Proofs.Document.Creating

/-!
# Upserts

An upsert that matches nothing adds the document that its filter and update make at the end of the
collection, or it fails and leaves the collection as it is (`upsert_creates`). The document answers to
the key that was looked for only if the last clause of the filter on the key asks for the same one as
the first (`second_key_is_created`).
-/

namespace StepLedger.Collection

variable {c : Collection} {f : Filter} {u : Update} {how : FindAndModify} {d : Document}

theorem first?_of_unmatched (h : c.find f = [] ∨ c.Misses f) : c.first? f = none := by
  obtain ⟨hnone, -⟩ | ⟨hmiss, i, d, -, hfirst⟩ := c.first?_cases f
  · exact hnone
  · have hhead := hfirst.head?_find
    rw [h.resolve_right hmiss] at hhead
    cases hhead

/-- An upsert whose filter asks for a key, and that matches nothing, succeeds exactly if the update
does not name the key, its amounts can be added, and no document has the key that the last clause on
it asks for. Then the one document made of the filter and the update stands at the end, behind all that
were there, and is what is answered if the new document is wanted; its key is that of the last clause,
and so the one looked for if both are the same. A failure changes nothing. -/
theorem upsert_creates (hc : c.Reachable) {id : Json} (hid : f.idValue? = some id)
    (hup : how.upsert = true) (hnone : c.find f = [] ∨ c.Misses f) :
    ∃ last, (f.asked idField).getLast? = some last ∧
      (∀ answer c', c.findAndModify f u how = .ok (answer, c') →
        ∃ d, c'.documents = c.documents ++ [d] ∧ c'.name = c.name ∧ u.Makes f d ∧
          answer = (if how.returnNew then some d else none) ∧
          d.get? idField = some last.value ∧ (d.get? idField = some id.value ↔ last = id)) ∧
      ((∃ answer c', c.findAndModify f u how = .ok (answer, c')) ↔
        ¬ u.NamesId ∧ u.Countable f ∧
          ∀ e ∈ c.documents, e.get? idField ≠ some last.value) ∧
      ∀ e, c.findAndModify f u how = .error e → c.after (.findAndModify f u how) = c := by
  obtain ⟨last, hlast⟩ := Filter.exists_getLast?_asked hid
  have hfirst := first?_of_unmatched hnone
  have hkey : ∀ d, u.create f = .ok d → d.get? idField = some last.value := fun d hcreate => by
    obtain ⟨htouch, -, hmakes⟩ := Update.create_eq_ok_iff.1 hcreate
    rw [hmakes.get?_id htouch, hlast, Option.map_some]
  refine ⟨last, hlast, fun answer c' h => ?_, ⟨?_, ?_⟩, fun e h => ?_⟩
  case refine_1 =>
    obtain ⟨_, _, _, hsome, -⟩ | ⟨-, ⟨hdown, -⟩ | ⟨-, d, hcreate, hinsert, hanswer⟩⟩ :=
      findAndModify_eq_ok h
    · rw [hfirst] at hsome
      cases hsome
    · rw [hup] at hdown
      cases hdown
    obtain ⟨key, -, -, rfl⟩ := insert_eq_ok hinsert
    refine ⟨d, rfl, rfl, (Update.create_eq_ok_iff.1 hcreate).2.2, hanswer, hkey d hcreate, ?_⟩
    rw [hkey d hcreate, Option.some.injEq]
    exact ⟨Json.ext, congrArg Json.value⟩
  case refine_2 =>
    rintro ⟨answer, c', h⟩
    obtain ⟨_, _, _, hsome, -⟩ | ⟨-, ⟨hdown, -⟩ | ⟨-, d, hcreate, hinsert, -⟩⟩ :=
      findAndModify_eq_ok h
    · rw [hfirst] at hsome
      cases hsome
    · rw [hup] at hdown
      cases hdown
    obtain ⟨htouch, hcountable, -⟩ := Update.create_eq_ok_iff.1 hcreate
    exact ⟨htouch, hcountable, (hc.wellFormed.exists_insert_iff (hkey d hcreate)).1 ⟨c', hinsert⟩⟩
  case refine_3 =>
    rintro ⟨htouch, hcountable, hnew⟩
    obtain ⟨d, hcreate⟩ := Update.exists_create_iff.2 ⟨htouch, hcountable⟩
    obtain ⟨c', hinsert⟩ := (hc.wellFormed.exists_insert_iff (hkey d hcreate)).2 hnew
    exact ⟨_, c', by rw [findAndModify_upsert hfirst hup hcreate, hinsert]; rfl⟩
  case refine_4 => rw [after, Store.orUnchanged_of_error h]

/-- A filter on a key and on the field of a counter, which no document has yet. -/
def unused : Filter := ((Filter.byId (.string "SEQ")).and "value" .null).and "note" (.string "free")

/-- Draw two numbers, and name the counter if there was none. -/
def drawing : Update :=
  ((Update.empty.andSetOnInsert "note" (.string "drawn")).andInc "value" 1).andInc "value" 1

theorem upsert_creates_counter : (empty "counters").Reachable ∧ (empty "counters").find unused = [] ∧
    ∃ d c', (empty "counters").findAndModify unused drawing ⟨true, true⟩ = .ok (some d, c') ∧
      c'.documents = [d] ∧ d.get? idField = some (.string "SEQ") ∧
      d.get? "value" = some (.number (.ofInt64 2)) ∧ d.get? "note" = some (.string "drawn") := by
  obtain ⟨last, hlast, hcreates, -, -⟩ := upsert_creates (c := empty "counters") (f := unused)
    (u := drawing) (.empty "counters") rfl (rfl : (⟨true, true⟩ : FindAndModify).upsert = true)
    (.inl rfl)
  cases hlast
  obtain ⟨d, hdocuments, -, hmakes, hanswer, hid, -⟩ := hcreates _ _ rfl
  obtain ⟨n, sum, hcounts, hsum, hvalue⟩ := hmakes.summed "value" (by decide)
  refine ⟨.empty "counters", rfl, d, _, congrArg Except.ok (Prod.ext hanswer rfl), hdocuments, hid, ?_,
    hmakes.seeded "note" (by decide)⟩
  rw [show drawing.seed unused "value" = some .null from rfl, Update.countsAs_null] at hcounts
  rw [hcounts] at hsum
  rw [hvalue, Int64.toInt_inj.1 (hsum.trans (by decide : _ = (2 : Int64).toInt))]

/-- A filter that asks for two keys. -/
def twofold : Filter := (Filter.byId (.ofInt64 1)).and idField (.ofInt64 2)

/-- The first of two keys is looked for, and the second is created. -/
theorem second_key_is_created : (empty "pages").Reachable ∧ twofold.idValue? = some (.ofInt64 1) ∧
    (empty "pages").find twofold = [] ∧ ∃ d c',
      (empty "pages").findAndModify twofold .empty ⟨true, true⟩ = .ok (some d, c') ∧
        c'.documents = [d] ∧ d.get? idField = some (Json.ofInt64 2).value ∧
        d.get? idField ≠ some (Json.ofInt64 1).value := by
  refine ⟨.empty "pages", rfl, rfl, _, _, rfl, rfl, rfl, fun h => ?_⟩
  have hsame : (2 : Int64) = 1 := Json.Value.ofInt64_inj.1 (Option.some.inj h)
  exact absurd hsame (by decide)

end StepLedger.Collection

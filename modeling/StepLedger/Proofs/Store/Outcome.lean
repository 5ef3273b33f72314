import StepLedger.Proofs.Store.Reachable

/-!
# What requests do to the documents

`Alike` stores show the same collections. A store `Becomes` another if one collection got other
documents and the rest is as before. Each request either fails and leaves the store alike, or does
to the documents what the operation says: `insertOne_ok`, `insertMany_ok`, `updateFirst_ok`,
`findAndModify_ok`, and the same with `_error`.
-/

namespace StepLedger.Store

/-- Two stores show the same collections. -/
def Alike (s s' : Store) : Prop := ∀ name, s'.view name = s.view name

/-- One collection has the documents `ds` in the store after, and the others are as before. -/
structure Becomes (s s' : Store) (name : String) (ds : List Document) : Prop where
  documents : (s'.view name).documents = ds
  others : ∀ other, other ≠ name → s'.view other = s.view other

theorem Alike.refl (s : Store) : s.Alike s := fun _ => rfl

theorem Alike.trans {s s' s'' : Store} (h : s.Alike s') (h' : s'.Alike s'') : s.Alike s'' :=
  fun name => (h' name).trans (h name)

theorem alike_of_view {s s' : Store} {name : String} (h : s'.view name = s.view name)
    (others : ∀ other, other ≠ name → s'.view other = s.view other) : s.Alike s' := by
  intro other
  by_cases hne : other = name
  · subst hne; exact h
  · exact others other hne

theorem Alike.wellFormed {s s' : Store} (h : s.Alike s') (hs : s.WellFormed) : s'.WellFormed :=
  fun name => (h name).symm ▸ hs name

/-- A request is about one collection. -/
theorem view_answer_ne {s : Store} (hs : s.WellFormed) {request : Request} {other : String}
    (hne : other ≠ request.collection) : (s.answer request).2.view other = s.view other := by
  have hanswered := s.answered request
  generalize s.answer request = outcome at hanswered ⊢
  cases hanswered with
  | idle => rfl
  | @edited _ _ absent operation edits blank =>
    have hserved := served_mutate hs fun hcreate => blank hcreate request.collection
    generalize s.mutate request.collection _ absent operation = outcome at hserved ⊢
    cases hserved with
    | refused _ same | idle _ _ same => exact same other
    | changed _ _ others => exact others other hne
  | dropped name =>
    obtain h | ⟨rfl, -⟩ := view_drop s name other
    · exact h
    · exact absurd rfl hne

/-! ## Operations that fail as a whole -/

section Whole

variable {α : Type} {s s' : Store} {name : String}
  {operation : Collection → Except StoreError (α × Collection)}

/-- A failure changes nothing; it has a cause in the store or in the operation. -/
theorem Served.of_error {e : StoreError}
    (h : Served s name (orUnchanged operation) (.error e, s')) :
    s.Alike s' ∧ (e.IsOutage ∨ isName name = false ∨
      operation (s.view name) = .error e) := by
  cases h with
  | refused cause same => exact ⟨same, cause.elim .inl fun h => .inr (.inl h)⟩
  | idle outcome still same =>
    refine ⟨same, .inr (.inr ?_)⟩
    cases hop : operation (s.view name) with
    | error e' => rw [orUnchanged_of_error hop] at outcome; cases outcome; rfl
    | ok result => rw [orUnchanged_of_ok hop] at outcome; cases outcome
  | @changed _ c _ outcome after others =>
    cases hop : operation (s.view name) with
    | error e' =>
      rw [orUnchanged_of_error hop] at outcome
      cases outcome
      exact ⟨alike_of_view after others, .inr (.inr rfl)⟩
    | ok result => rw [orUnchanged_of_ok hop] at outcome; cases outcome

/-- A success is that of the operation, and what it gives takes effect if it is a change. -/
theorem Served.of_ok {a : α} (h : Served s name (orUnchanged operation) (.ok a, s')) :
    ∃ c, operation (s.view name) = .ok (a, c) ∧
      (s'.view name = c ∧ s.Becomes s' name c.documents ∨
        c.revision = (s.view name).revision ∧ s.Alike s') := by
  have hop : ∀ {c}, orUnchanged operation (s.view name) = (.ok a, c) →
      operation (s.view name) = .ok (a, c) := by
    intro c outcome
    cases hop : operation (s.view name) with
    | error e => rw [orUnchanged_of_error hop] at outcome; cases outcome
    | ok result => rw [orUnchanged_of_ok hop] at outcome; cases outcome; rfl
  cases h with
  | @idle _ c _ outcome still same => exact ⟨c, hop outcome, .inr ⟨still, same⟩⟩
  | @changed _ c _ outcome after others =>
    exact ⟨c, hop outcome, .inl ⟨after, by rw [after], others⟩⟩

end Whole

variable {s s' : Store} {name : String}

/-! ## Inserting -/

theorem insertOne_error (hs : s.WellFormed) {d : Document} {e : StoreError}
    (h : s.insertOne name d = (.error e, s')) : s.Alike s' := by
  have hserved := served_insertOne hs name d
  rw [h] at hserved
  exact hserved.of_error.1

theorem insertOne_ok (hs : s.WellFormed) {d : Document}
    (h : s.insertOne name d = (.ok (), s')) :
    s.Becomes s' name ((s.view name).documents ++ [d]) := by
  have hserved := served_insertOne hs name d
  rw [h] at hserved
  obtain ⟨c, hop, heffect⟩ := hserved.of_ok
  obtain ⟨inserted, hi, heq⟩ := Except.map_eq_ok.1 hop
  obtain ⟨key, -, -, rfl⟩ := Collection.insert_eq_ok hi
  cases heq
  rcases heffect with ⟨-, hbecomes⟩ | ⟨hrev, -⟩
  · exact hbecomes
  · exact absurd hrev (Nat.succ_ne_self _)

theorem insertMany_nil (s : Store) (name : String) : s.insertMany name [] = (.ok 0, s) := rfl

/-- Some of the documents are inserted, from the first on; all of them if the request succeeds. -/
theorem insertMany_prefix (hs : s.WellFormed) {ds : List Document} {result : Except StoreError Nat}
    (h : s.insertMany name ds = (result, s')) :
    (s.Alike s' ∧ (∀ n, result = .ok n → ds = [])) ∨
      ∃ inserted, inserted <+: ds ∧ (∀ n, result = .ok n → inserted = ds) ∧
        s.Becomes s' name ((s.view name).documents ++ inserted) := by
  by_cases hds : ds = []
  · subst hds
    rw [insertMany_nil] at h
    cases h
    exact .inl ⟨Alike.refl s, fun _ _ => rfl⟩
  · obtain ⟨inserted, hpre, hall, hdocs, hrev⟩ :=
      Collection.insertMany_eq (s.view name) ds
    have hserved := served_insertMany hs name hds
    rw [h] at hserved
    cases hserved with
    | refused cause same => exact .inl ⟨same, nofun⟩
    | idle outcome still same =>
      rw [outcome] at hall hrev
      refine .inl ⟨same, fun n hn => ?_⟩
      have hnone : inserted = [] := by simpa [still] using hrev
      rw [← hall n hn, hnone]
    | changed outcome after others =>
      rw [outcome] at hall hdocs
      exact .inr ⟨inserted, hpre, hall, by rw [after, hdocs], others⟩

theorem insertMany_ok (hs : s.WellFormed) {ds : List Document} (hds : ds ≠ []) {n : Nat}
    (h : s.insertMany name ds = (.ok n, s')) :
    s.Becomes s' name ((s.view name).documents ++ ds) := by
  obtain ⟨-, hnil⟩ | ⟨inserted, -, hall, hbecomes⟩ := insertMany_prefix hs h
  · exact absurd (hnil n rfl) hds
  · rwa [hall n rfl] at hbecomes

/-- Documents with new keys, no two the same, are all inserted or none is. -/
theorem insertMany_error_of_fresh (hs : s.WellFormed) {ds : List Document} {keys : List String}
    {e : StoreError} (hkeys : ds.map Document.key? = keys.map some) (hn : keys.Nodup)
    (hnew : ∀ key ∈ keys, key ∉ (s.view name).keys)
    (h : s.insertMany name ds = (.error e, s')) : s.Alike s' := by
  by_cases hds : ds = []
  · subst hds; rw [insertMany_nil] at h; cases h
  · obtain ⟨n, hall⟩ := Collection.insertMany_of_fresh hkeys hn hnew
    have hserved := served_insertMany hs name hds
    rw [h] at hserved
    cases hserved with
    | refused cause same => exact same
    | idle outcome still same => exact same
    | changed outcome after others => rw [outcome] at hall; cases hall

/-! ## Updating -/

theorem updateFirst_error (hs : s.WellFormed) {f : Filter} {u : Update} {e : StoreError}
    (h : s.updateFirst name f u = (.error e, s')) : s.Alike s' := by
  cases hu : u.isEmpty with
  | true => rw [updateFirst, if_pos hu] at h; cases h; exact Alike.refl s
  | false =>
    have hserved := served_updateFirst hs name f hu
    rw [h] at hserved
    exact hserved.of_error.1

/-- Why an update fails that can be applied to what it finds. -/
theorem kind_of_updateFirst (hs : s.WellFormed) {f : Filter} {u : Update} {e : StoreError}
    (hu : u.isEmpty = false) (happly : ∀ d, ∃ d', u.apply d = .ok d')
    (h : s.updateFirst name f u = (.error e, s')) :
    e.IsOutage ∨ isName name = false := by
  have hserved := served_updateFirst hs name f hu
  rw [h] at hserved
  obtain ⟨-, hkind | hname | hop⟩ := hserved.of_error
  · exact .inl hkind
  · exact .inr hname
  · unfold Collection.updateFirst at hop
    split at hop
    · cases hop
    · next i before _ =>
      obtain ⟨after, ha⟩ := happly before
      rw [ha] at hop
      cases hop

/-- The first match gets the place of what it becomes, unless the two are equal. -/
theorem updateFirst_ok (hs : s.WellFormed) {f : Filter} {u : Update} {result : UpdateResult}
    (h : s.updateFirst name f u = (.ok result, s')) :
    (s.view name).first? f = none ∧ result.matched = 0 ∧ s.Alike s' ∨
      ∃ i before after, (s.view name).first? f = some (i, before) ∧ u.apply before = .ok after ∧
        result.matched = 1 ∧ (s.Becomes s' name ((s.view name).documents.set i after) ∨
          after.same before = true ∧ s.Alike s') := by
  cases hu : u.isEmpty with
  | true => rw [updateFirst, if_pos hu] at h; cases h
  | false =>
    have hserved := served_updateFirst hs name f hu
    rw [h] at hserved
    obtain ⟨c, hop, heffect⟩ := hserved.of_ok
    obtain ⟨hnone, rfl, rfl⟩ | ⟨i, before, after, hfirst, happly, rfl, rfl⟩ :=
      Collection.updateFirst_eq_ok hop
    · refine .inl ⟨hnone, rfl, ?_⟩
      rcases heffect with ⟨hview, hbecomes⟩ | ⟨-, halike⟩
      · exact alike_of_view hview hbecomes.others
      · exact halike
    · refine .inr ⟨i, before, after, hfirst, happly, rfl, ?_⟩
      rcases heffect with ⟨-, hbecomes⟩ | ⟨hrev, halike⟩
      · exact .inl hbecomes
      · exact .inr ⟨Collection.same_of_revision_replaceAt hrev, halike⟩

theorem findAndModify_error (hs : s.WellFormed) {f : Filter} {u : Update} {how : FindAndModify}
    {e : StoreError} (h : s.findAndModify name f u how = (.error e, s')) :
    s.Alike s' ∧ (u.isEmpty = true ∨ e.IsOutage ∨ isName name = false ∨
      (s.view name).findAndModify f u how = .error e) := by
  cases hu : u.isEmpty with
  | true => rw [findAndModify, if_pos hu] at h; cases h; exact ⟨Alike.refl s, .inl rfl⟩
  | false =>
    have hserved := served_findAndModify hs name f how hu
    rw [h] at hserved
    exact ⟨hserved.of_error.1, .inr hserved.of_error.2⟩

/-- The first match gets the place of what it becomes, unless the two are equal. If there is none,
an upsert adds a document. -/
theorem findAndModify_ok (hs : s.WellFormed) {f : Filter} {u : Update} {how : FindAndModify}
    {result : Option Document} (h : s.findAndModify name f u how = (.ok result, s')) :
    (∃ i before after, (s.view name).first? f = some (i, before) ∧ u.apply before = .ok after ∧
        result = some (if how.returnNew then after else before) ∧
        (s.Becomes s' name ((s.view name).documents.set i after) ∨
          after.same before = true ∧ s.Alike s')) ∨
      (s.view name).first? f = none ∧ (how.upsert = false ∧ result = none ∧ s.Alike s' ∨
        how.upsert = true ∧ ∃ created, u.create f = .ok created ∧
          s.Becomes s' name ((s.view name).documents ++ [created]) ∧
          result = if how.returnNew then some created else none) := by
  cases hu : u.isEmpty with
  | true => rw [findAndModify, if_pos hu] at h; cases h
  | false =>
    have hserved := served_findAndModify hs name f how hu
    rw [h] at hserved
    obtain ⟨c, hop, heffect⟩ := hserved.of_ok
    obtain ⟨i, before, after, hfirst, happly, rfl, rfl⟩ |
        ⟨hnone, ⟨hup, rfl, rfl⟩ | ⟨hup, created, hcreate, hi, rfl⟩⟩ :=
      Collection.findAndModify_eq_ok hop
    · refine .inl ⟨i, before, after, hfirst, happly, rfl, ?_⟩
      rcases heffect with ⟨-, hbecomes⟩ | ⟨hrev, halike⟩
      · exact .inl hbecomes
      · exact .inr ⟨Collection.same_of_revision_replaceAt hrev, halike⟩
    · refine .inr ⟨hnone, .inl ⟨hup, rfl, ?_⟩⟩
      rcases heffect with ⟨hview, hbecomes⟩ | ⟨-, halike⟩
      · exact alike_of_view hview hbecomes.others
      · exact halike
    · refine .inr ⟨hnone, .inr ⟨hup, created, hcreate, ?_, rfl⟩⟩
      obtain ⟨key, -, -, rfl⟩ := Collection.insert_eq_ok hi
      rcases heffect with ⟨-, hbecomes⟩ | ⟨hrev, -⟩
      · exact hbecomes
      · exact absurd hrev (Nat.succ_ne_self _)

end StepLedger.Store

import StepLedger.Proofs.Document.Sums

/-!
# What an upsert puts in

The document that an upsert creates is made of four layers: the clauses of the filter, of which the
later count, then the fields for created documents, then the fields that are set, and last the amounts
that are added. `Update.seed` is what a field holds under the amounts, `Update.Makes` says which
document comes of the layers, and `Update.create_eq_ok_iff` that it is the one that is created, and
when one is.

The key of that document is the one that the last clause on it asks for (`Update.Makes.get?_id`). A
request looks for the first such clause (`Filter.idValue?_eq_head?_asked`).
-/

namespace StepLedger

namespace Filter

/-- The values that the clauses on a field ask for, in order. -/
def asked (f : Filter) (field : String) : List Json :=
  f.clauses.filterMap fun clause => if clause.1 = field then some clause.2 else none

theorem asked_cons (clause : String × Json) (clauses : List (String × Json)) (field : String) :
    (mk (clause :: clauses)).asked field =
      if clause.1 = field then clause.2 :: (mk clauses).asked field else (mk clauses).asked field := by
  by_cases h : clause.1 = field <;> simp [asked, h]

theorem idValue?_eq_head?_asked (f : Filter) : f.idValue? = (f.asked idField).head? := by
  rw [idValue?, asked]
  generalize f.clauses = clauses
  induction clauses with
  | nil => rfl
  | cons clause clauses ih =>
    by_cases h : clause.1 = idField
    · simp [h]
    · simpa [h] using ih

/-- A filter that asks for a key has a last clause on it. -/
theorem exists_getLast?_asked {f : Filter} {id : Json} (h : f.idValue? = some id) :
    ∃ last, (f.asked idField).getLast? = some last := by
  rw [idValue?_eq_head?_asked] at h
  cases hasked : f.asked idField with
  | nil => rw [hasked] at h; cases h
  | cons first rest => exact ⟨_, List.getLast?_cons⟩

end Filter

/-- Of the values put in under one name the last is found. -/
theorem Document.get?_ofList_clauses (f : Filter) (field : String) :
    (ofList f.clauses).get? field = (f.asked field).getLast?.map Json.value := by
  suffices hfold : ∀ (clauses : List (String × Json)) (d : Document),
      (clauses.foldl (fun d clause => d.set clause.1 clause.2) d).get? field =
        (((Filter.mk clauses).asked field).getLast?.map Json.value).or (d.get? field) by
    simpa [ofList] using hfold f.clauses empty
  intro clauses
  induction clauses with
  | nil => exact fun d => rfl
  | cons clause clauses ih =>
    intro d
    rw [List.foldl_cons, ih, get?_set]
    by_cases h : clause.1 = field
    · rw [Filter.asked_cons, if_pos h, if_pos h.symm, List.getLast?_cons]
      cases ((Filter.mk clauses).asked field).getLast? <;> rfl
    · rw [Filter.asked_cons, if_neg h, if_neg (Ne.symm h)]

namespace Update

variable {u : Update} {f : Filter} {d e : Document}

/-- What a field of a created document holds before anything is added to it: what is set, else what
is there for created documents, else what the last clause on it asks for. -/
def seed (u : Update) (f : Filter) (field : String) : Option Json.Value :=
  (u.set.get? field).or ((u.setOnInsert.get? field).or ((f.asked field).getLast?.map Json.value))

/-- Every field that is added to counts as an integer, from which on every beginning of its amounts
sums up to a word. -/
def Countable (u : Update) (f : Filter) : Prop :=
  ∀ field ∈ u.inc.map (·.1), ∃ n, CountsAs (u.seed f field) n ∧
    ∀ first, first <+: amountsFor field u.inc → IsWord (n + total first)

/-- The document of the four layers. -/
structure Makes (u : Update) (f : Filter) (d : Document) : Prop where
  /-- A field that is added to holds the sum. -/
  summed : ∀ field ∈ u.inc.map (·.1), ∃ (n : Int) (sum : Int64), CountsAs (u.seed f field) n ∧
    sum.toInt = n + total (amountsFor field u.inc) ∧ d.get? field = some (.number (.ofInt64 sum))
  /-- Every other field is as the layers under the amounts leave it. -/
  seeded : ∀ field ∉ u.inc.map (·.1), d.get? field = u.seed f field

/-- The layers under those of the update. -/
def ground (u : Update) (f : Filter) : Document :=
  (Document.ofList f.clauses).overlay u.setOnInsert

theorem base_ground (u : Update) (f : Filter) (field : String) :
    u.base (u.ground f) field = u.seed f field := by
  rw [base, ground, Document.get?_overlay, Document.get?_ofList_clauses, seed]

theorem create_of_namesId (h : u.NamesId) : u.create f = .error (.invalidArgument .keyUpdate) := by
  rw [create, if_pos (touchesId_iff.2 h)]
  rfl

theorem create_eq (h : ¬ u.NamesId) : u.create f = u.apply (u.ground f) := by
  rw [create, if_neg (by rwa [touchesId_iff])]
  rfl

theorem makes_of_apply (h : u.apply (u.ground f) = .ok d) (hid : ¬ u.NamesId) : u.Makes f d := by
  constructor
  · intro field hfield
    have hne : amountsFor field u.inc ≠ [] := fun hnil => amountsFor_eq_nil_iff.1 hnil hfield
    obtain ⟨n, sum, hcounts, -, hsum, hget⟩ := (addsUp_iff hne).1 ((apply_eq_ok_iff hid).1 h field)
    exact ⟨n, sum, base_ground u f field ▸ hcounts, hsum, hget⟩
  · intro field hfield
    rw [← base_ground]
    exact get?_of_apply h hfield

/-- A field counts as one integer only. -/
theorem CountsAs.unique {value : Option Json.Value} {m n : Int} (hm : CountsAs value m)
    (hn : CountsAs value n) : m = n := by
  cases hm <;> cases hn <;> rfl

/-- The layers make one document. -/
theorem Makes.unique (hd : u.Makes f d) (he : u.Makes f e) : d = e := by
  refine Document.ext_get? fun field => ?_
  by_cases hfield : field ∈ u.inc.map (·.1)
  · obtain ⟨m, sum, hm, hsum, hget⟩ := hd.summed field hfield
    obtain ⟨n, sum', hn, hsum', hget'⟩ := he.summed field hfield
    rw [hm.unique hn] at hsum
    rw [hget, hget', Int64.toInt_inj.1 (hsum.trans hsum'.symm)]
  · rw [hd.seeded field hfield, he.seeded field hfield]

/-- A document is created unless the update names the key or its amounts cannot be added, and it is
the one that the layers make. -/
theorem create_eq_ok_iff : u.create f = .ok d ↔ ¬ u.NamesId ∧ u.Countable f ∧ u.Makes f d := by
  constructor
  · intro h
    have hid : ¬ u.NamesId := fun hid => by
      rw [create_of_namesId hid] at h
      cases h
    rw [create_eq hid] at h
    refine ⟨hid, ?_, makes_of_apply h hid⟩
    simpa only [Countable, base_ground] using (exists_apply_iff hid).1 ⟨d, h⟩
  · rintro ⟨hid, hcountable, hmakes⟩
    obtain ⟨d', happly⟩ := (exists_apply_iff (d := u.ground f) hid).2
      (by simpa only [Countable, base_ground] using hcountable)
    rw [create_eq hid, happly, hmakes.unique (makes_of_apply happly hid)]

/-- If nothing stands against it, there is a document that the layers make. -/
theorem exists_create_iff : (∃ d, u.create f = .ok d) ↔ ¬ u.NamesId ∧ u.Countable f := by
  constructor
  · rintro ⟨d, h⟩
    obtain ⟨hid, hcountable, -⟩ := create_eq_ok_iff.1 h
    exact ⟨hid, hcountable⟩
  · rintro ⟨hid, hcountable⟩
    rw [create_eq hid, exists_apply_iff hid]
    simpa only [Countable, base_ground] using hcountable

/-- The key of the document is that of the last clause on it. -/
theorem Makes.get?_id (h : u.Makes f d) (hid : ¬ u.NamesId) :
    d.get? idField = (f.asked idField).getLast?.map Json.value := by
  rw [NamesId, not_or, not_or, not_ne_iff, not_ne_iff] at hid
  obtain ⟨hset, hinsert, hinc⟩ := hid
  rw [h.seeded idField hinc, seed, hset, hinsert, Option.none_or, Option.none_or]

end Update

end StepLedger

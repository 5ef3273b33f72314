import StepLedger.Proofs.Step.Writes

/-!
# What requests enter into a ledger

Any number of clients call any operations at once. A world is `Tended` if its store has a ledger and
every operation under way keeps it and holds ids of its own. Every request keeps a world so, and
`Entered` says what it does to the ids and to the records: nothing, hand out an id, insert records or
put one over another.
-/

namespace StepLedger

/-! ## Ids that operations hold -/

/-- The ids held by each call: handed out, not yet used, and held by nobody else. -/
structure Holds (held : Nat → List Int64) (value : Int64) (records : List StepRecord) : Prop where
  fresh : ∀ i, Fresh (held i) value records
  apart : ∀ i j, i ≠ j → (held i).Disjoint (held j)

namespace Holds

variable {held : Nat → List Int64} {value : Int64} {records : List StepRecord}

theorem none (value : Int64) (records : List StepRecord) : Holds (fun _ => []) value records where
  fresh _ := ⟨List.nodup_nil, by simp, by simp⟩
  apart _ _ _ := List.disjoint_nil_left _

/-- One call has its ids replaced by ids that no other call holds. -/
theorem update (h : Holds held value records) {i : Nat} {ids : List Int64}
    (hids : Fresh ids value records) (hapart : ∀ j, j ≠ i → ids.Disjoint (held j)) :
    Holds (Function.update held i ids) value records where
  fresh j := by
    by_cases heq : j = i
    · subst heq; rwa [Function.update_self]
    · rw [Function.update_of_ne heq]; exact h.fresh j
  apart j k hne := by
    by_cases hj : j = i
    · subst hj
      rw [Function.update_self, Function.update_of_ne (Ne.symm hne)]
      exact hapart k (Ne.symm hne)
    · rw [Function.update_of_ne hj]
      by_cases hk : k = i
      · subst hk
        rw [Function.update_self]
        exact fun _ hleft hright => hapart j hj hright hleft
      · rw [Function.update_of_ne hk]
        exact h.apart j k hne

/-- A call gives up its ids. -/
theorem release (h : Holds held value records) (i : Nat) :
    Holds (Function.update held i []) value records :=
  h.update ⟨List.nodup_nil, by simp, by simp⟩ fun _ _ => List.disjoint_nil_left _

/-- The next id is handed out to a call. -/
theorem allocate (h : Holds held value records) (hle : ∀ r ∈ records, r.id.toInt ≤ value.toInt)
    (i : Nat) {n : Int64} (hn : Update.addChecked value 1 = some n) :
    Holds (Function.update held i (held i ++ [n])) n records := by
  have hlt : value.toInt < n.toInt := by
    have hsum := Update.addChecked_eq_some_iff.1 hn
    have hone : (1 : Int64).toInt = 1 := rfl
    omega
  have hnew : ∀ j, n ∉ held j := fun j hmem => by
    have := (h.fresh j).le n hmem
    omega
  have hlater : Holds held n records :=
    ⟨fun j => ⟨(h.fresh j).nodup, fun id hid => by have := (h.fresh j).le id hid; omega,
      (h.fresh j).notMem⟩, h.apart⟩
  refine hlater.update ⟨?_, fun id hid => ?_, fun id hid => ?_⟩ fun j hne => ?_
  · exact List.nodup_append.2 ⟨(h.fresh i).nodup, List.nodup_singleton n, fun a ha b hb heq =>
      hnew i (List.mem_singleton.1 hb ▸ heq ▸ ha)⟩
  · rcases List.mem_append.1 hid with hid | hid
    · exact (hlater.fresh i).le id hid
    · exact List.mem_singleton.1 hid ▸ Int.le_refl _
  · rcases List.mem_append.1 hid with hid | hid
    · exact (h.fresh i).notMem id hid
    · rw [List.mem_singleton.1 hid]
      intro hmem
      obtain ⟨r, hr, rfl⟩ := List.mem_map.1 hmem
      have := hle r hr
      omega
  · rw [List.disjoint_append_left]
    exact ⟨h.apart i j (Ne.symm hne), List.singleton_disjoint.2 (hnew j)⟩

/-- A call uses its ids. -/
theorem insert (h : Holds held value records) {i : Nat} {rs : List StepRecord}
    (hids : rs.map (·.id) = held i) :
    Holds (Function.update held i []) value (records ++ rs) where
  fresh j := by
    have hfresh := (h.release i).fresh j
    refine ⟨hfresh.nodup, hfresh.le, fun id hid hmem => ?_⟩
    rw [List.map_append, List.mem_append, hids] at hmem
    rcases hmem with hmem | hmem
    · exact hfresh.notMem id hid hmem
    · by_cases heq : j = i
      · subst heq
        rw [Function.update_self] at hid
        cases hid
      · rw [Function.update_of_ne heq] at hid
        exact h.apart j i heq hid hmem
  apart := (h.release i).apart

/-- A step is updated. -/
theorem replace (h : Holds held value records) {i : Nat} {before r : StepRecord}
    (hi : records[i]? = some before) : Holds held value (records.set i (r.laidOver before)) where
  fresh j := by
    refine ⟨(h.fresh j).nodup, (h.fresh j).le, fun id hid => ?_⟩
    rw [map_id_set hi]
    exact (h.fresh j).notMem id hid
  apart := h.apart

end Holds

/-! ## Requests of several calls -/

/-- What a request of the call `i` comes to: the ids that the calls hold, the last id that was handed
out and the records after it, where `left` is what is left of the call. -/
inductive Entered (site : Site) (i : Nat) (what : Command) (held : Nat → List Int64) (value : Int64)
    (records : List StepRecord) (left : Program Reply) :
    (Nat → List Int64) → Int64 → List StepRecord → Prop
  | quiet (keeps : Keeps site what (held i) left) :
    Entered site i what held value records left held value records
  | allocated {n : Int64} (successor : Update.addChecked value 1 = some n)
    (keeps : Keeps site what (held i ++ [n]) left) :
    Entered site i what held value records left (Function.update held i (held i ++ [n])) n records
  | inserted {rs : List StepRecord} {reply : Reply} (ids : rs.map (·.id) = held i)
    (booked : Booked what.1.cap reply.written rs) (unlike : ∀ e, what.2 ≠ .update e)
    (returned : left = .done reply) :
    Entered site i what held value records left (Function.update held i []) value (records ++ rs)
  | replaced {k : Nat} {before r : StepRecord} {e updated : StepExecution}
    (place : records[k]? = some before) (update : what.2 = .update e) (id : e.id = some before.id)
    (version : e.version = some before.version)
    (successor : r.version.toInt = before.version.toInt + 1)
    (written : (r.laidOver before).Shows updated what.1.cap)
    (execution : StepRecord.ofExecution updated what.1.cap = .ok r)
    (returned : left = .done (.updated updated)) :
    Entered site i what held value records left held value (records.set k (r.laidOver before))

/-- The calls of a world keep its ledger. -/
structure Tended (site : Site) (w : World Command Reply) (held : Nat → List Int64) (value : Int64)
    (records : List StepRecord) : Prop where
  ledger : Ledger site w.store value records
  holds : Holds held value records
  /-- What is under way keeps the ledger. -/
  pending : ∀ i what request next, w.calls[i]? = some ⟨what, .ask request next⟩ →
    Keeps site what (held i) (.ask request next)

namespace Tended

variable {site : Site} {w : World Command Reply} {held : Nat → List Int64} {value : Int64}
  {records : List StepRecord}

/-- Nothing has been called yet. -/
theorem ofStore {s : Store} (hledger : Ledger site s value records) :
    Tended site (World.ofStore s) (fun _ => []) value records where
  ledger := hledger
  holds := .none value records
  pending := by simp [World.ofStore]

theorem start (h : Tended site w held value records) (what : Command) :
    Tended site (w.start what (site.program what)) (Function.update held w.calls.length []) value
      records where
  ledger := h.ledger
  holds := h.holds.release _
  pending i what' request next hcall := by
    rw [World.start, List.getElem?_append] at hcall
    split at hcall
    · next hlt =>
      rw [Function.update_of_ne (Nat.ne_of_lt hlt)]
      exact h.pending i what' request next hcall
    · next hge =>
      rw [List.getElem?_singleton] at hcall
      split at hcall
      · obtain rfl : i = w.calls.length := by omega
        obtain ⟨rfl, hleft⟩ := Call.mk.inj (Option.some.inj hcall)
        rw [Function.update_self, ← hleft]
        exact keeps_program site what
      · cases hcall

theorem rest (h : Tended site w held value records) {store : Store} (halike : w.store.Alike store) :
    Tended site { w with store } held value records where
  ledger := h.ledger.of_alike halike
  holds := h.holds
  pending := h.pending

/-- A request is answered: what becomes of the ledger and of the ids of its call. -/
theorem answer_of (h : Tended site w held value records) {i : Nat} {what : Command}
    {request : Request} {next : request.Answer → Program Reply}
    (hcall : w.calls[i]? = some ⟨what, .ask request next⟩) {held' : Nat → List Int64}
    {value' : Int64} {records' : List StepRecord} {left : Program Reply}
    (hresume : Program.resume next (w.store.answer request).1 = left)
    (hledger : Ledger site (w.store.answer request).2 value' records')
    (hholds : Holds held' value' records') (hothers : ∀ j, j ≠ i → held' j = held j)
    (hleft : ∀ request' next', left = .ask request' next' →
      Keeps site what (held' i) (.ask request' next')) :
    Tended site (w.answer i what request next) held' value' records' where
  ledger := hledger
  holds := hholds
  pending j what' request' next' hj := by
    rw [World.getElem?_calls_answer hcall, hresume] at hj
    split at hj
    · next heq =>
      subst heq
      obtain ⟨rfl, hask⟩ := Call.mk.inj (Option.some.inj hj)
      exact hleft request' next' hask
    · next hne =>
      rw [hothers j (Ne.symm hne)]
      exact h.pending j what' request' next' hj

/-- Every request keeps a world tended, by what it enters into the ledger. -/
theorem answer (h : Tended site w held value records) {i : Nat} {what : Command}
    {request : Request} {next : request.Answer → Program Reply}
    (hcall : w.calls[i]? = some ⟨what, .ask request next⟩) : ∃ held' value' records',
      Tended site (w.answer i what request next) held' value' records' ∧
      Entered site i what held value records (Program.resume next (w.store.answer request).1) held'
        value' records' := by
  have hkept := h.pending i what request next hcall w.store value records h.ledger (h.holds.fresh i)
  have hothers : ∀ ids j, j ≠ i → Function.update held i ids j = held j := fun ids j hne =>
    Function.update_of_ne hne ids held
  generalize hleft : Program.resume next (w.store.answer request).1 = left
  cases hanswer : w.store.answer request with
  | mk result s' =>
    rw [hanswer] at hkept hleft
    have hresume : Program.resume next (w.store.answer request).1 = left := by rw [hanswer, hleft]
    cases hkept with
    | refused ledger =>
      obtain rfl : .fail _ = left := hleft
      exact ⟨held, value, records, h.answer_of hcall hresume (hanswer ▸ ledger) h.holds
        (fun _ _ => rfl) nofun, .quiet trivial⟩
    | looked ledger keeps =>
      obtain rfl : next _ = left := hleft
      exact ⟨held, value, records, h.answer_of hcall hresume (hanswer ▸ ledger) h.holds
        (fun _ _ => rfl) fun _ _ hask => hask ▸ keeps, .quiet keeps⟩
    | @allocated _ _ n successor ledger keeps =>
      obtain rfl : next _ = left := hleft
      refine ⟨_, n, records, h.answer_of hcall hresume (hanswer ▸ ledger)
        (h.holds.allocate h.ledger.ids_le i successor) (hothers _) fun _ _ hask => ?_,
        .allocated successor keeps⟩
      rw [Function.update_self]
      exact hask ▸ keeps
    | inserted ledger ids booked unlike returned =>
      obtain rfl : _ = left := returned.symm.trans hleft
      exact ⟨_, value, _, h.answer_of hcall hresume (hanswer ▸ ledger) (h.holds.insert ids)
        (hothers _) nofun, .inserted ids booked unlike rfl⟩
    | replaced place ledger update id version successor written returned execution =>
      obtain rfl : _ = left := returned.symm.trans hleft
      exact ⟨held, value, _, h.answer_of hcall hresume (hanswer ▸ ledger) (h.holds.replace place)
        (fun _ _ => rfl) nofun,
        .replaced place update id version successor written execution rfl⟩

end Tended

end StepLedger

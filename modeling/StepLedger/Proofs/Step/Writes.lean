import StepLedger.Proofs.Step.Keeping

/-!
# What has been written

The replies to commands tell which executions were written (`writes`) and from which versions steps
were updated (`updatedFrom`). The records of a ledger are `Accounted` for by replies if the version of
each counts the updates of the step, which went from version to version, and if it shows what was
written last under its id. A reply that nothing was written, that records were inserted or that one
was replaced keeps it so.
-/

namespace StepLedger

/-- A command with the reply to it. -/
abbrev Replied := Command × Reply

/-- The version from which the step with an id was updated, if it was. -/
def updatedFrom? (id : Int64) (replied : Replied) : Option Int32 :=
  match replied.1.2 with
  | .update e => if e.id = some id then e.version else none
  | _ => none

/-- The executions that were written, each with the number of characters of an exit description that
the client stores. -/
def written (replied : Replied) : List (Nat × StepExecution) :=
  replied.2.written.map (replied.1.1.cap, ·)

/-- The versions from which the step with an id was updated, in order. -/
def updatedFrom (replies : List Replied) (id : Int64) : List Int32 :=
  replies.filterMap (updatedFrom? id)

/-- What was written under an id, in order. -/
def writes (replies : List Replied) (id : Int64) : List (Nat × StepExecution) :=
  (replies.flatMap written).filter (·.2.id = some id)

/-- Replies account for records. -/
structure Accounted (replies : List Replied) (records : List StepRecord) : Prop where
  /-- What is not stored has not been updated. -/
  unknown : ∀ id, id ∉ records.map (·.id) → updatedFrom replies id = []
  /-- What is not stored has not been written. -/
  unwritten : ∀ id, id ∉ records.map (·.id) → writes replies id = []
  /-- The version counts the updates. -/
  counted : ∀ r ∈ records, r.version.toInt = (updatedFrom replies r.id).length
  /-- Updates go from version to version. -/
  ordered : ∀ id, (updatedFrom replies id).map Int32.toInt =
    (List.range (updatedFrom replies id).length).map Int.ofNat
  /-- What was written last is stored. -/
  shown : ∀ r ∈ records, ∃ cap e, (writes replies r.id).getLast? = some (cap, e) ∧ r.Shows e cap
  /-- The name and the job are those that were written first. -/
  named : ∀ r ∈ records, ∃ cap e, (writes replies r.id).head? = some (cap, e) ∧
    e.name = some r.name ∧ e.job = r.job

/-- Updates and writes of a step account for its record. -/
structure StepRecord.AccountedBy (r : StepRecord) (updates : List Int32)
    (writes : List (Nat × StepExecution)) : Prop where
  counted : r.version.toInt = updates.length
  shown : ∃ cap e, writes.getLast? = some (cap, e) ∧ r.Shows e cap
  named : ∃ cap e, writes.head? = some (cap, e) ∧ e.name = some r.name ∧ e.job = r.job

theorem updatedFrom?_eq_none {command : Command} (h : ∀ e, command.2 ≠ .update e) (reply : Reply)
    (id : Int64) : updatedFrom? id (command, reply) = none := by
  obtain ⟨client, operation⟩ := command
  cases operation with
  | update e => exact absurd rfl (h e)
  | _ => rfl

theorem updatedFrom?_eq_of_update {command : Command} {e : StepExecution}
    (h : command.2 = .update e) {id : Int64} {version : Int32} (hid : e.id = some id)
    (hversion : e.version = some version) (reply : Reply) (other : Int64) :
    updatedFrom? other (command, reply) = if other = id then some version else none := by
  obtain ⟨client, operation⟩ := command
  obtain rfl : operation = .update e := h
  show (if e.id = some other then e.version else none) = _
  rw [hid, hversion]
  simp only [Option.some.injEq, eq_comm]

section Append

variable (replies : List Replied) (replied : Replied) (id : Int64)

theorem updatedFrom_append : updatedFrom (replies ++ [replied]) id =
    updatedFrom replies id ++ (updatedFrom? id replied).toList := by
  rw [updatedFrom, List.filterMap_append]
  rfl

theorem writes_append : writes (replies ++ [replied]) id = writes replies id ++
    (replied.2.written.filter (·.id = some id)).map (replied.1.1.cap, ·) := by
  rw [writes, List.flatMap_append, List.filter_append, List.flatMap_singleton, written,
    List.filter_map]
  rfl

variable {replies replied id}

theorem updatedFrom_append_of_none (h : updatedFrom? id replied = none) :
    updatedFrom (replies ++ [replied]) id = updatedFrom replies id := by
  rw [updatedFrom_append, h, Option.toList_none, List.append_nil]

theorem updatedFrom_append_of_some {version : Int32} (h : updatedFrom? id replied = some version) :
    updatedFrom (replies ++ [replied]) id = updatedFrom replies id ++ [version] := by
  rw [updatedFrom_append, h, Option.toList_some]

theorem writes_append_of_nil (h : replied.2.written.filter (·.id = some id) = []) :
    writes (replies ++ [replied]) id = writes replies id := by
  rw [writes_append, h, List.map_nil, List.append_nil]

theorem writes_append_of_singleton {e : StepExecution}
    (h : replied.2.written.filter (·.id = some id) = [e]) :
    writes (replies ++ [replied]) id = writes replies id ++ [(replied.1.1.cap, e)] := by
  rw [writes_append, h, List.map_singleton]

end Append

/-- Versions that go up from 0 one by one do so with the next one too. -/
theorem map_toInt_concat {versions : List Int32} {version : Int32}
    (h : versions.map Int32.toInt = (List.range versions.length).map Int.ofNat)
    (hversion : version.toInt = versions.length) :
    (versions ++ [version]).map Int32.toInt =
      (List.range (versions ++ [version]).length).map Int.ofNat := by
  rw [List.length_append, List.length_singleton, List.range_succ, List.map_append, List.map_append,
    h, List.map_singleton, List.map_singleton, hversion]
  rfl

/-! ## Records under their ids -/

/-- What is inserted is at version 0. -/
theorem Booked.version_eq {cap : Nat} {saved : List StepExecution} {rs : List StepRecord}
    (h : Booked cap saved rs) : ∀ r ∈ rs, r.version = 0 := by
  induction h with
  | nil => simp
  | cons hr _ ih => exact List.forall_mem_cons.2 ⟨hr.2, ih⟩

/-- Every execution that is saved has a record. -/
theorem Booked.exists_record {cap : Nat} {saved : List StepExecution} {rs : List StepRecord}
    (h : Booked cap saved rs) :
    ∀ e ∈ saved, ∃ r ∈ rs, StepRecord.ofExecution e cap = .ok r := by
  induction h with
  | nil => simp
  | cons hr _ ih =>
    refine List.forall_mem_cons.2 ⟨⟨_, List.mem_cons_self, hr.1⟩, fun e he => ?_⟩
    obtain ⟨r, hmem, hexecution⟩ := ih e he
    exact ⟨r, List.mem_cons_of_mem _ hmem, hexecution⟩

/-- Every record is that of an execution. -/
theorem Booked.exists_execution {cap : Nat} {saved : List StepExecution} {rs : List StepRecord}
    (h : Booked cap saved rs) : ∀ r ∈ rs, ∃ e, StepRecord.ofExecution e cap = .ok r := by
  induction h with
  | nil => simp
  | cons hr _ ih => exact List.forall_mem_cons.2 ⟨⟨_, hr.1⟩, ih⟩

/-- Nothing is inserted under other ids. -/
theorem Booked.filter_eq_nil {cap : Nat} {saved : List StepExecution} {rs : List StepRecord}
    (h : Booked cap saved rs) {id : Int64} (hid : id ∉ rs.map (·.id)) :
    saved.filter (·.id = some id) = [] := by
  induction h with
  | nil => rfl
  | @cons e r saved rs hr _ ih =>
    rw [List.map_cons, List.mem_cons, not_or] at hid
    rw [List.filter_cons_of_neg, ih hid.2]
    rw [(StepRecord.shows_of_ofExecution hr.1).id, decide_eq_true_iff, Option.some.injEq]
    exact fun heq => hid.1 heq.symm

/-- An execution that is inserted is the only one under its id. -/
theorem Booked.filter_eq {cap : Nat} {saved : List StepExecution} {rs : List StepRecord}
    (h : Booked cap saved rs) (hn : (rs.map (·.id)).Nodup) {r : StepRecord} (hr : r ∈ rs) :
    ∃ e, saved.filter (·.id = some r.id) = [e] ∧ StepRecord.ofExecution e cap = .ok r := by
  induction h with
  | nil => cases hr
  | @cons e r' saved rs hr' hrest ih =>
    have hid := (StepRecord.shows_of_ofExecution hr'.1).id
    rw [List.map_cons, List.nodup_cons] at hn
    rcases List.mem_cons.1 hr with rfl | hr
    · refine ⟨e, ?_, hr'.1⟩
      rw [List.filter_cons_of_pos (by rw [hid, decide_eq_true_iff]),
        Booked.filter_eq_nil hrest hn.1]
    · obtain ⟨e', hfilter, hexecution⟩ := ih hn.2 hr
      refine ⟨e', ?_, hexecution⟩
      rw [List.filter_cons_of_neg, hfilter]
      rw [hid, decide_eq_true_iff, Option.some.injEq]
      exact fun heq => hn.1 (List.mem_map.2 ⟨r, hr, heq.symm⟩)

/-- To put a record over another changes no id. -/
theorem map_id_set {records : List StepRecord} {i : Nat} {before r : StepRecord}
    (hi : records[i]? = some before) :
    (records.set i (r.laidOver before)).map (·.id) = records.map (·.id) :=
  Collection.map_set_of_eq hi rfl

/-- The other records have other ids. -/
theorem eq_or_ne_of_mem_set {records : List StepRecord} (hn : (records.map (·.id)).Nodup) {i : Nat}
    {before after r : StepRecord} (hi : records[i]? = some before)
    (hr : r ∈ records.set i after) : r = after ∨ r ∈ records ∧ r.id ≠ before.id := by
  obtain ⟨j, hj⟩ := List.getElem?_of_mem hr
  rw [List.getElem?_set] at hj
  split at hj
  · split at hj
    · exact .inl (Option.some.inj hj).symm
    · cases hj
  · next hne =>
    refine .inr ⟨List.mem_of_getElem? hj, fun heq => hne ?_⟩
    obtain ⟨hilt, rfl⟩ := List.getElem?_eq_some_iff.1 hi
    obtain ⟨hjlt, rfl⟩ := List.getElem?_eq_some_iff.1 hj
    have hilt' : i < (records.map (·.id)).length := by rwa [List.length_map]
    have hjlt' : j < (records.map (·.id)).length := by rwa [List.length_map]
    have hget : (records.map (·.id))[i] = (records.map (·.id))[j] := by simpa using heq.symm
    exact hn.getElem_inj_iff.1 hget

/-! ## Accounts are kept -/

namespace StepRecord

variable {r before : StepRecord} {e : StepExecution} {cap : Nat}

/-- A record that is inserted was written once and not updated. -/
theorem accountedBy_of_ofExecution (h : ofExecution e cap = .ok r) (hversion : r.version = 0) :
    r.AccountedBy [] [(cap, e)] := by
  obtain ⟨hjob, hsame⟩ := ofExecution_eq_ok h
  exact ⟨by rw [hversion]; rfl, ⟨cap, e, rfl, shows_of_ofExecution h⟩,
    cap, e, rfl, (congrArg StepExecution.name hsame).symm, hjob.symm⟩

/-- A record that is put over another was updated and written once more. -/
theorem AccountedBy.laidOver {updates : List Int32} {writes : List (Nat × StepExecution)}
    (h : before.AccountedBy updates writes) (hshows : (r.laidOver before).Shows e cap)
    (hsuccessor : r.version.toInt = before.version.toInt + 1) :
    (r.laidOver before).AccountedBy (updates ++ [before.version]) (writes ++ [(cap, e)]) where
  counted := by
    show r.version.toInt = ((updates ++ [before.version]).length : Int)
    rw [List.length_append, List.length_singleton, hsuccessor, h.counted]
    rfl
  shown := ⟨cap, e, by rw [List.getLast?_append]; rfl, hshows⟩
  named := by
    obtain ⟨cap', e', hhead, hnamed⟩ := h.named
    exact ⟨cap', e', by rw [List.head?_append, hhead]; rfl, hnamed⟩

end StepRecord

namespace Accounted

variable {replies : List Replied} {records : List StepRecord} {replied : Replied}

theorem each (h : Accounted replies records) {r : StepRecord} (hr : r ∈ records) :
    r.AccountedBy (updatedFrom replies r.id) (writes replies r.id) :=
  ⟨h.counted r hr, h.shown r hr, h.named r hr⟩

theorem of_each
    (hunknown : ∀ id, id ∉ records.map (·.id) → updatedFrom replies id = [] ∧ writes replies id = [])
    (heach : ∀ r ∈ records, r.AccountedBy (updatedFrom replies r.id) (writes replies r.id))
    (hordered : ∀ id, (updatedFrom replies id).map Int32.toInt =
      (List.range (updatedFrom replies id).length).map Int.ofNat) : Accounted replies records where
  unknown id hid := (hunknown id hid).1
  unwritten id hid := (hunknown id hid).2
  counted r hr := (heach r hr).counted
  ordered := hordered
  shown r hr := (heach r hr).shown
  named r hr := (heach r hr).named

theorem nil : Accounted [] [] where
  unknown _ _ := rfl
  unwritten _ _ := rfl
  counted := by simp
  ordered _ := rfl
  shown := by simp
  named := by simp

/-- A reply says that nothing was written. -/
theorem append_quiet (h : Accounted replies records) (hnone : ∀ id, updatedFrom? id replied = none)
    (hwritten : replied.2.written = []) : Accounted (replies ++ [replied]) records := by
  have hupdated : ∀ id, updatedFrom (replies ++ [replied]) id = updatedFrom replies id :=
    fun id => updatedFrom_append_of_none (hnone id)
  have hwrites : ∀ id, writes (replies ++ [replied]) id = writes replies id :=
    fun id => writes_append_of_nil (by rw [hwritten, List.filter_nil])
  refine .of_each (fun id hid => ?_) (fun r hr => ?_) fun id => ?_
  · rw [hupdated, hwrites]; exact ⟨h.unknown id hid, h.unwritten id hid⟩
  · rw [hupdated, hwrites]; exact h.each hr
  · rw [hupdated]; exact h.ordered id

/-- What keeps a ledger has not written anything yet, whether it is over or not. -/
theorem append_of_keeps (h : Accounted replies records) {site : Site} {what : Command}
    {held : List Int64} {left : Program Reply} (hleft : Keeps site what held left) :
    Accounted (replies ++ (Call.reply? ⟨what, left⟩).toList) records := by
  cases left with
  | done reply =>
    obtain ⟨hwritten, hwhat⟩ := hleft
    exact h.append_quiet (updatedFrom?_eq_none hwhat reply) hwritten
  | fail e => rwa [Call.reply?, Option.toList_none, List.append_nil]
  | stalled => rwa [Call.reply?, Option.toList_none, List.append_nil]
  | ask request next => rwa [Call.reply?, Option.toList_none, List.append_nil]

/-- A reply says that records were inserted under new ids. -/
theorem append_inserted (h : Accounted replies records) {rs : List StepRecord}
    (hn : (rs.map (·.id)).Nodup) (hnew : ∀ r ∈ rs, r.id ∉ records.map (·.id))
    (hbooked : Booked replied.1.1.cap replied.2.written rs)
    (hnone : ∀ id, updatedFrom? id replied = none) :
    Accounted (replies ++ [replied]) (records ++ rs) := by
  have hupdated : ∀ id, updatedFrom (replies ++ [replied]) id = updatedFrom replies id :=
    fun id => updatedFrom_append_of_none (hnone id)
  have hothers : ∀ id, id ∉ rs.map (·.id) → writes (replies ++ [replied]) id = writes replies id :=
    fun id hid => writes_append_of_nil (hbooked.filter_eq_nil hid)
  have hold : ∀ r ∈ records, r.id ∉ rs.map (·.id) := by
    intro r hr hmem
    obtain ⟨r', hr', heq⟩ := List.mem_map.1 hmem
    exact hnew r' hr' (List.mem_map.2 ⟨r, hr, heq.symm⟩)
  refine .of_each (fun id hid => ?_) (fun r hr => ?_) fun id => ?_
  · rw [List.map_append, List.mem_append, not_or] at hid
    rw [hupdated, hothers id hid.2]
    exact ⟨h.unknown id hid.1, h.unwritten id hid.1⟩
  · rw [hupdated]
    rcases List.mem_append.1 hr with hr | hr
    · rw [hothers r.id (hold r hr)]
      exact h.each hr
    · obtain ⟨e, hsingle, hexecution⟩ := hbooked.filter_eq hn hr
      rw [writes_append_of_singleton hsingle, h.unknown r.id (hnew r hr),
        h.unwritten r.id (hnew r hr)]
      exact StepRecord.accountedBy_of_ofExecution hexecution (hbooked.version_eq r hr)
  · rw [hupdated]
    exact h.ordered id

/-- A reply says that a record was put over that of a step. -/
theorem append_replaced (h : Accounted replies records) (hn : (records.map (·.id)).Nodup)
    {i : Nat} {before r : StepRecord} (hi : records[i]? = some before)
    (hsome : ∀ id, updatedFrom? id replied =
      if id = before.id then some before.version else none)
    {e : StepExecution} (hwritten : replied.2.written = [e])
    (hshows : (r.laidOver before).Shows e replied.1.1.cap)
    (hsuccessor : r.version.toInt = before.version.toInt + 1) :
    Accounted (replies ++ [replied]) (records.set i (r.laidOver before)) := by
  have hbefore := List.mem_of_getElem? hi
  have hid : e.id = some before.id := hshows.id
  have hupdated : updatedFrom (replies ++ [replied]) before.id =
      updatedFrom replies before.id ++ [before.version] :=
    updatedFrom_append_of_some ((hsome before.id).trans (if_pos rfl))
  have hquiet : ∀ id, id ≠ before.id →
      updatedFrom (replies ++ [replied]) id = updatedFrom replies id :=
    fun id hne => updatedFrom_append_of_none ((hsome id).trans (if_neg hne))
  have hadded : writes (replies ++ [replied]) before.id =
      writes replies before.id ++ [(replied.1.1.cap, e)] :=
    writes_append_of_singleton (by simp [hwritten, hid])
  have hwrites : ∀ id, id ≠ before.id → writes (replies ++ [replied]) id = writes replies id :=
    fun id hne => writes_append_of_nil (by simp [hwritten, hid, hne.symm])
  refine .of_each (fun id hid => ?_) (fun r' hr' => ?_) fun id => ?_
  · rw [map_id_set hi] at hid
    have hne : id ≠ before.id := fun heq => hid (heq ▸ List.mem_map_of_mem hbefore)
    rw [hquiet id hne, hwrites id hne]
    exact ⟨h.unknown id hid, h.unwritten id hid⟩
  · rcases eq_or_ne_of_mem_set hn hi hr' with rfl | ⟨hr', hne⟩
    · have hbooked := (h.each hbefore).laidOver hshows hsuccessor
      rwa [← hupdated, ← hadded] at hbooked
    · rw [hquiet r'.id hne, hwrites r'.id hne]
      exact h.each hr'
  · by_cases heq : id = before.id
    · subst heq
      rw [hupdated]
      exact map_toInt_concat (h.ordered before.id) (h.counted before hbefore)
    · rw [hquiet id heq]
      exact h.ordered id

end Accounted

end StepLedger

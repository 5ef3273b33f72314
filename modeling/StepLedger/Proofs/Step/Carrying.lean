import StepLedger.Proofs.Step.Keeping
import StepLedger.Proofs.Store.Durable

/-!
# What a whole operation does to a ledger

An operation that is carried out with nobody else at work, while the disk changes as it likes, is
`Carried` out: either no step changes, or records are added under ids that were handed out during the
operation, or one record is put over another; and the reply tells which (`Keeps.carried`).
-/

namespace StepLedger

open Program

/-- Ids that were handed out one after the other, all of them after `base`. -/
structure Drawn (held : List Int64) (base value : Int64) : Prop where
  ascending : held.Pairwise fun id later => id.toInt < later.toInt
  lt : ∀ id ∈ held, base.toInt < id.toInt
  le : ∀ id ∈ held, id.toInt ≤ value.toInt

namespace Drawn

variable {held : List Int64} {base value : Int64} {records : List StepRecord}

theorem nil (base value : Int64) : Drawn [] base value := ⟨.nil, by simp, by simp⟩

/-- One more id is handed out. -/
theorem snoc (h : Drawn held base value) (hbase : base.toInt ≤ value.toInt) {n : Int64}
    (hlt : value.toInt < n.toInt) : Drawn (held ++ [n]) base n := by
  refine ⟨List.pairwise_append.2 ⟨h.ascending, List.pairwise_singleton _ n,
    fun id hid later hlater => ?_⟩, fun id hid => ?_, fun id hid => ?_⟩
  · rw [List.mem_singleton.1 hlater]
    exact Int.lt_of_le_of_lt (h.le id hid) hlt
  · rcases List.mem_append.1 hid with hid | hid
    · exact h.lt id hid
    · rw [List.mem_singleton.1 hid]
      exact Int.lt_of_le_of_lt hbase hlt
  · rcases List.mem_append.1 hid with hid | hid
    · exact Int.le_of_lt (Int.lt_of_le_of_lt (h.le id hid) hlt)
    · exact Int.le_of_eq (congrArg Int64.toInt (List.mem_singleton.1 hid))

/-- Such ids are new to steps that were there before. -/
theorem fresh (h : Drawn held base value) (hold : ∀ r ∈ records, r.id.toInt ≤ base.toInt) :
    Fresh held value records where
  nodup := h.ascending.imp fun hlt heq => by rw [heq] at hlt; exact Int.lt_irrefl _ hlt
  le := h.le
  notMem id hid hmem := by
    obtain ⟨r, hr, rfl⟩ := List.mem_map.1 hmem
    exact Int.lt_irrefl _ (Int.lt_of_lt_of_le (h.lt r.id hid) (hold r hr))

end Drawn

/-- What an operation comes to that began when `base` was the last id handed out and `records` were
stored. -/
inductive Carried (site : Site) (command : Command) (base : Int64) (records : List StepRecord) :
    Outcome Reply × Scheduled → Prop
  /-- No step has changed, and the reply tells of none. -/
  | nothing {outcome : Outcome Reply} {t : Scheduled} {value : Int64}
    (ledger : Ledger site t.store value records)
    (quiet : ∀ reply, outcome = .returned reply → reply.written = [] ∧ ∀ e, command.2 ≠ .update e) :
    Carried site command base records (outcome, t)
  | inserted {reply : Reply} {t : Scheduled} {value : Int64} {rs : List StepRecord}
    (ledger : Ledger site t.store value (records ++ rs)) (drawn : Drawn (rs.map (·.id)) base value)
    (booked : Booked command.1.cap reply.written rs) (what : ∀ e, command.2 ≠ .update e) :
    Carried site command base records (.returned reply, t)
  | replaced {t : Scheduled} {value : Int64} {i : Nat} {before r : StepRecord}
    {e updated : StepExecution} (place : records[i]? = some before)
    (ledger : Ledger site t.store value (records.set i (r.laidOver before)))
    (what : command.2 = .update e) (id : e.id = some before.id)
    (version : e.version = some before.version)
    (successor : r.version.toInt = before.version.toInt + 1)
    (written : (r.laidOver before).Shows updated command.1.cap) :
    Carried site command base records (.returned (.updated updated), t)

/-- What keeps a ledger is carried out. -/
theorem Keeps.carried {site : Site} {command : Command} {base : Int64} {records : List StepRecord}
    (hold : ∀ r ∈ records, r.id.toInt ≤ base.toInt) {held : List Int64} {value : Int64}
    {program : Program Reply} {t : Scheduled} (h : Keeps site command held program)
    (hledger : Ledger site t.store value records) (hbase : base.toInt ≤ value.toInt)
    (hdrawn : Drawn held base value) :
    Carried site command base records (program.run Scheduled.answer t) := by
  induction program generalizing held value t with
  | done reply => exact .nothing hledger fun _ heq => by cases heq; exact h
  | fail e => exact .nothing hledger fun _ heq => by cases heq
  | stalled => exact .nothing hledger fun _ heq => by cases heq
  | ask request next ih =>
    have hkept := h t.met value records (hledger.of_alike t.alike_met) (hdrawn.fresh hold)
    rw [Program.run, Scheduled.answer]
    cases hanswer : t.met.answer request with
    | mk result s' =>
      rw [hanswer] at hkept
      cases hkept with
      | refused ledger => exact .nothing ledger fun _ heq => by cases heq
      | looked ledger left => exact ih _ left ledger hbase hdrawn
      | allocated successor ledger left =>
        have hsum := Update.addChecked_eq_some_iff.1 successor
        have hone : (1 : Int64).toInt = 1 := rfl
        exact ih _ left ledger (by omega) (hdrawn.snoc hbase (by omega))
      | inserted ledger ids booked what left =>
        dsimp only
        rw [left]
        exact .inserted ledger (ids ▸ hdrawn) booked what
      | replaced place ledger what id version successor written left =>
        dsimp only
        rw [left]
        exact .replaced place ledger what id version successor written

end StepLedger

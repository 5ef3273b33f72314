import StepLedger.Proofs.Step.Ledger

/-!
# What operations do to a ledger

`Keeps` says of what is left of an operation that, whatever else happens to the store between its
requests, each of them does one of a few things to the ledger: nothing at all, hand out an id that
the operation then holds, insert records under all ids that it holds, or put one record over another
at the version that was passed. After either way of writing the operation is over, and it replies
with what was written. Every operation does so (`keeps_program`).
-/

namespace StepLedger

open Sequence

/-- The record shows an execution: all of it that an update writes, its exit description cut. -/
structure StepRecord.Shows (r : StepRecord) (e : StepExecution) (cap : Nat) : Prop where
  id : e.id = some r.id
  version : e.version = some r.version
  startTime : e.startTime = some r.startTime
  endTime : e.endTime = r.endTime
  status : e.status = some r.status
  exit : r.exit = e.exit.withDescription (cutDescription e.exit.description cap)
  counters : e.counters = r.counters
  lastUpdated : e.lastUpdated = r.lastUpdated

theorem StepRecord.shows_of_ofExecution {e : StepExecution} {cap : Nat} {r : StepRecord}
    (h : ofExecution e cap = .ok r) : r.Shows e cap := by
  obtain ⟨-, heq⟩ := ofExecution_eq_ok h
  exact ⟨(congrArg StepExecution.id heq).symm, (congrArg StepExecution.version heq).symm,
    (congrArg StepExecution.startTime heq).symm, (congrArg StepExecution.endTime heq).symm,
    (congrArg StepExecution.status heq).symm, congrArg StepExecution.exit heq,
    (congrArg StepExecution.counters heq).symm, (congrArg StepExecution.lastUpdated heq).symm⟩

/-- Over the record of the same step it shows the same. -/
theorem StepRecord.Shows.laidOver {r before : StepRecord} {e : StepExecution} {cap : Nat}
    (h : r.Shows e cap) (hid : before.id = r.id) : (r.laidOver before).Shows e cap :=
  ⟨h.id.trans (congrArg some hid.symm), h.version, h.startTime, h.endTime, h.status, h.exit,
    h.counters, h.lastUpdated⟩

/-- What is read of a record is the execution that it shows, with the name that is stored. -/
theorem StepRecord.Shows.toExecution {r : StepRecord} {e : StepExecution} {cap : Nat}
    (h : r.Shows e cap) (job : JobExecution) :
    r.toExecution job = { e.cut cap with name := some r.name, job := job } := by
  simp only [StepRecord.toExecution, StepExecution.cut, h.id, h.version, h.startTime, h.endTime,
    h.status, h.exit, h.counters, h.lastUpdated]

/-- New executions and the records that are inserted for them. -/
def Booked (cap : Nat) (saved : List StepExecution) (rs : List StepRecord) : Prop :=
  List.Forall₂ (fun e r => StepRecord.ofExecution e cap = .ok r ∧ r.version = 0) saved rs

/-- The ids have been handed out, no two are the same, and no step has one of them. -/
structure Fresh (held : List Int64) (value : Int64) (records : List StepRecord) : Prop where
  nodup : held.Nodup
  le : ∀ id ∈ held, id.toInt ≤ value.toInt
  notMem : ∀ id ∈ held, id ∉ records.map (·.id)

/-- What a request of an operation comes to that holds some ids, where `goesOn` says of ids and an
answer that what is left of the operation keeps the ledger too. -/
inductive Kept {request : Request} (site : Site) (command : Command) (held : List Int64)
    (value : Int64) (records : List StepRecord) (goesOn : List Int64 → request.Answer → Prop)
    (next : request.Answer → Program Reply) : Except StoreError request.Answer × Store → Prop
  | refused {e : StoreError} {s' : Store} (ledger : Ledger site s' value records) :
    Kept site command held value records goesOn next (.error e, s')
  | looked {answer : request.Answer} {s' : Store} (ledger : Ledger site s' value records)
    (left : goesOn held answer) : Kept site command held value records goesOn next (.ok answer, s')
  | allocated {answer : request.Answer} {s' : Store} {n : Int64}
    (successor : Update.addChecked value 1 = some n) (ledger : Ledger site s' n records)
    (left : goesOn (held ++ [n]) answer) :
    Kept site command held value records goesOn next (.ok answer, s')
  | inserted {answer : request.Answer} {s' : Store} {rs : List StepRecord} {reply : Reply}
    (ledger : Ledger site s' value (records ++ rs)) (ids : rs.map (·.id) = held)
    (booked : Booked command.1.cap reply.written rs) (what : ∀ e, command.2 ≠ .update e)
    (left : next answer = .done reply) :
    Kept site command held value records goesOn next (.ok answer, s')
  | replaced {answer : request.Answer} {s' : Store} {i : Nat} {before r : StepRecord}
    {e updated : StepExecution} (place : records[i]? = some before)
    (ledger : Ledger site s' value (records.set i (r.laidOver before)))
    (what : command.2 = .update e) (id : e.id = some before.id)
    (version : e.version = some before.version)
    (successor : r.version.toInt = before.version.toInt + 1)
    (written : (r.laidOver before).Shows updated command.1.cap)
    (left : next answer = .done (.updated updated))
    (execution : StepRecord.ofExecution updated command.1.cap = .ok r) :
    Kept site command held value records goesOn next (.ok answer, s')

/-- The operation keeps the ledger, while it holds some ids. -/
def Keeps (site : Site) (command : Command) : List Int64 → Program Reply → Prop
  | _, .done reply => reply.written = [] ∧ ∀ e, command.2 ≠ .update e
  | _, .fail _ | _, .stalled => True
  | held, .ask request next => ∀ (s : Store) (value : Int64) (records : List StepRecord),
      Ledger site s value records → Fresh held value records →
      Kept site command held value records (fun held answer => Keeps site command held (next answer))
        next (s.answer request)

namespace Keeps

open Program

variable {site : Site} {command : Command} {held : List Int64}

/-- A program whose requests are quiet keeps the ledger, whatever it holds. -/
theorem of_asks {program : Program Reply}
    (h : program.Asks site.Quiet fun reply => reply.written = [] ∧ ∀ e, command.2 ≠ .update e) :
    Keeps site command held program := by
  induction program with
  | done reply => exact h
  | fail e => trivial
  | stalled => trivial
  | ask request next ih =>
    intro s value records hledger _
    have hquiet := h.1 s value records hledger
    cases hanswer : s.answer request with
    | mk result s' =>
      rw [hanswer] at hquiet
      cases result with
      | error e => exact .refused hquiet
      | ok answer => exact .looked hquiet (ih answer (h.2 answer))

theorem bind_bind {α β : Type} {program : Program α} {g : α → Program β} {f : β → Program Reply}
    (h : Keeps site command held (program.bind fun a => (g a).bind f)) :
    Keeps site command held ((program.bind g).bind f) := by
  rwa [Program.bind_assoc]

theorem bind_ofExcept {α : Type} {result : Except StoreError α} {f : α → Program Reply}
    (h : ∀ a, result = .ok a → Keeps site command held (f a)) :
    Keeps site command held ((ofExcept result).bind f) := by
  cases result with
  | error e => trivial
  | ok a => exact h a rfl

/-! ## Allocation -/

/-- What follows an allocation holds one more id. -/
theorem bind_allocates {program : Program Int64}
    (h : Allocates site.counters site.sequence program) {f : Int64 → Program Reply}
    (hf : ∀ n, Keeps site command (held ++ [n]) (f n)) :
    Keeps site command held (program.bind f) := by
  induction program with
  | done n => exact h.elim
  | fail e => exact h.elim
  | stalled => trivial
  | ask request next ih =>
    intro s value records hledger _
    have hasked := h s value hledger.wellFormed hledger.counter
    have hs' := hledger.wellFormed.answer request
    cases hanswer : s.answer request with
    | mk result s' =>
      rw [hanswer] at hasked hs'
      cases hasked with
      | refused same => exact .refused (hledger.of_alike same)
      | exhausted same _ left =>
        refine .looked (hledger.of_alike same) ?_
        show Keeps _ _ _ ((next _).bind f)
        rw [left]
        trivial
      | looked same left => exact .looked (hledger.of_alike same) (ih _ left)
      | advanced successor change left =>
        refine .allocated successor (hledger.of_advances hs' successor change) ?_
        show Keeps _ _ _ ((next _).bind f)
        rw [left]
        exact hf _

theorem bind_next {client : Client} {f : Int64 → Program Reply}
    (hf : ∀ n, Keeps site command (held ++ [n]) (f n)) :
    Keeps site command held (((site.allocator client).next site.sequence).bind f) := by
  cases hname : Sequence.checkName site.sequence with
  | ok _ => exact bind_allocates (Allocator.allocates_next (a := site.allocator client) hname) hf
  | error e =>
    rw [Allocator.next_of_error hname]
    trivial

/-! ## Saving -/

theorem bind_identify {e : StepExecution} {f : StepExecution × Document → Program Reply}
    (hf : ∀ saved r, StepRecord.ofExecution saved command.1.cap = .ok r → r.version = 0 →
      Keeps site command (held ++ [r.id]) (f (saved, r.toDocument))) :
    Keeps site command held (((site.catalogue command.1).identify e).bind f) := by
  refine bind_bind (bind_ofExcept fun _ _ => ?_)
  refine bind_bind (bind_next fun id => ?_)
  refine bind_bind (bind_ofExcept fun r hr => ?_)
  have hshows := StepRecord.shows_of_ofExecution hr
  obtain rfl : id = r.id := Option.some.inj hshows.id
  exact hf _ r hr (Option.some.inj hshows.version).symm

theorem bind_identifyAll {es : List StepExecution}
    {f : List StepExecution × List Document → Program Reply}
    (hf : ∀ saved rs, Booked command.1.cap saved rs →
      Keeps site command (held ++ rs.map (·.id)) (f (saved, rs.map StepRecord.toDocument))) :
    Keeps site command held (((site.catalogue command.1).identifyAll es).bind f) := by
  induction es generalizing held f with
  | nil =>
    have hnone := hf [] [] .nil
    rwa [List.map_nil, List.append_nil] at hnone
  | cons e es ih =>
    refine bind_bind (bind_identify fun saved r hr hversion => ?_)
    refine bind_bind (ih fun rest rs hrest => ?_)
    have hall := hf (saved :: rest) (r :: rs) (.cons ⟨hr, hversion⟩ hrest)
    rwa [List.map_cons, List.append_cons] at hall

/-- A request that inserts the document of a record under an id that is held. -/
theorem ask_insertOne (reply : Reply) (hwhat : ∀ e, command.2 ≠ .update e) {r : StepRecord}
    (hbooked : Booked command.1.cap reply.written [r]) :
    Keeps site command [r.id]
      (.ask (.insertOne site.steps r.toDocument) fun _ => .done reply) := by
  intro s value records hledger hfresh
  rw [Store.answer]
  cases hinsert : s.insertOne site.steps r.toDocument with
  | mk result s' =>
    cases result with
    | error e => exact .refused (hledger.of_alike (Store.insertOne_error hledger.wellFormed hinsert))
    | ok _ =>
      have hid := hfresh.le r.id List.mem_cons_self
      exact .inserted (hledger.insertOne hid hinsert) rfl hbooked hwhat rfl

theorem ask_insertMany (reply : Reply) (hwhat : ∀ e, command.2 ≠ .update e)
    {rs : List StepRecord} (hbooked : Booked command.1.cap reply.written rs) :
    Keeps site command (rs.map (·.id))
      (.ask (.insertMany site.steps (rs.map StepRecord.toDocument)) fun _ => .done reply) := by
  intro s value records hledger hfresh
  have hnew : ∀ r ∈ rs, r.id.toInt ≤ value.toInt ∧ r.id ∉ records.map (·.id) := fun r hr =>
    ⟨hfresh.le r.id (List.mem_map_of_mem hr), hfresh.notMem r.id (List.mem_map_of_mem hr)⟩
  rw [Store.answer]
  cases hinsert : s.insertMany site.steps (rs.map StepRecord.toDocument) with
  | mk result s' =>
    obtain ⟨⟨e, rfl⟩, hsame⟩ | ⟨⟨n, rfl⟩, hall⟩ := hledger.insertMany hfresh.nodup hnew hinsert
    · exact .refused hsame
    · exact .inserted hall rfl hbooked hwhat rfl

theorem save (e : StepExecution) (h : command.2 = .save e) :
    Keeps site command [] (site.program command) := by
  have hwhat : ∀ e, command.2 ≠ .update e := by rw [h]; exact fun e => nofun
  rw [Site.program, h]
  refine bind_bind (bind_identify fun saved r hr hversion => ?_)
  exact ask_insertOne (.saved saved) hwhat (.cons ⟨hr, hversion⟩ .nil)

theorem saveAll (es : Option (List StepExecution)) (h : command.2 = .saveAll es) :
    Keeps site command [] (site.program command) := by
  have hwhat : ∀ e, command.2 ≠ .update e := by rw [h]; exact fun e => nofun
  rw [Site.program, h]
  cases es with
  | none => trivial
  | some es =>
    cases es with
    | nil => exact ⟨rfl, hwhat⟩
    | cons e es =>
      refine bind_bind (bind_identifyAll fun saved rs hbooked => ?_)
      rw [List.nil_append]
      exact ask_insertMany (.savedAll saved) hwhat hbooked

/-! ## Updating -/

/-- A request that writes an execution over its version. -/
theorem ask_updateFirst {e : StepExecution} (h : command.2 = .update e) {id : Int64}
    {version next : Int32} {r : StepRecord} (hid : e.id = some id)
    (hversion : e.version = some version) (hnext : StepCatalogue.nextVersion id version = .ok next)
    (hr : StepRecord.ofExecution (e.identified id next) command.1.cap = .ok r) :
    Keeps site command held
      (.ask (.updateFirst site.steps ((Filter.byId (.ofInt64 id)).and StepRecord.versionField
        (.ofInt32 version)) r.update) fun (result : UpdateResult) =>
          (if result.matched = 0 then (site.catalogue command.1).diagnose id version
            else .done (e.identified id next)).bind fun e => .done (.updated e)) := by
  intro s value records hledger _
  have hshows := StepRecord.shows_of_ofExecution hr
  have hsum := Operation.toInt_version_of_nextVersion hnext hr
  have hne := Operation.version_ne_of_nextVersion hnext hr
  obtain rfl : next = r.version := Option.some.inj hshows.version
  rw [Store.answer]
  cases hupdate : s.updateFirst site.steps ((Filter.byId (.ofInt64 id)).and
      StepRecord.versionField (.ofInt32 version)) r.update with
  | mk result s' =>
    cases result with
    | error e => exact .refused (hledger.of_alike (Store.updateFirst_error hledger.wellFormed hupdate))
    | ok result =>
      obtain ⟨hnone, hsame⟩ | ⟨i, before, hi, rfl, rfl, hone, hreplaced⟩ :=
        hledger.updateFirst hne hupdate
      · refine .looked hsame ?_
        show Keeps _ _ _ (Program.bind (if result.matched = 0 then _ else _) _)
        rw [if_pos hnone]
        refine of_asks (asks_bind (Operation.asks_diagnose (site.quiet_find _) id version) ?_)
        exact fun _ h => h.elim
      · have hwritten : (r.laidOver before).Shows (e.identified before.id r.version) command.1.cap :=
          hshows.laidOver (Option.some.inj hshows.id)
        refine .replaced hi hreplaced h hid hversion hsum hwritten ?_ hr
        show Program.bind (if result.matched = 0 then _ else _) _ = _
        rw [if_neg (by omega)]
        rfl

theorem update (e : StepExecution) (h : command.2 = .update e) :
    Keeps site command [] (site.program command) := by
  rw [Site.program, h, Operation.program]
  obtain ⟨error, -, hupdate⟩ | ⟨id, version, next, r, hid, hversion, hnext, hr, hupdate⟩ :=
    Operation.update_cases site command.1 e
  · rw [hupdate]
    trivial
  · rw [hupdate]
    exact ask_updateFirst h hid hversion hnext hr

/-! ## Every operation -/

theorem next (name : String) (h : command.2 = .next name) :
    Keeps site command [] (site.program command) := by
  have hwhat : ∀ e, command.2 ≠ .update e := by rw [h]; exact fun e => nofun
  rw [Site.program, h]
  by_cases hname : site.sequence = name
  · subst hname
    exact bind_next fun n => ⟨rfl, hwhat⟩
  · refine of_asks (asks_bind (Operation.asks_next (site.quiet_find _ _)
      (Site.quiet_swap hname) (Site.quiet_increment hname)) fun _ _ => ⟨rfl, hwhat⟩)

end Keeps

/-- Every operation keeps the ledger. -/
theorem keeps_program (site : Site) (command : Command) :
    Keeps site command [] (site.program command) := by
  obtain ⟨client, operation⟩ := command
  have hfind := site.quiet_find site.steps
  cases operation with
  | save e => exact .save e rfl
  | saveAll es => exact .saveAll es rfl
  | update e => exact .update e rfl
  | next name => exact .next name rfl
  | get job id =>
    exact .of_asks (Program.asks_bind (Operation.asks_get hfind job id) fun _ _ =>
      ⟨rfl, fun e => nofun⟩)
  | findByJob job =>
    exact .of_asks (Program.asks_bind (Operation.asks_findByJob hfind job) fun _ _ =>
      ⟨rfl, fun e => nofun⟩)
  | getLast jobInstance name =>
    exact .of_asks (Program.asks_bind (Operation.asks_getLast hfind jobInstance name) fun _ _ =>
      ⟨rfl, fun e => nofun⟩)
  | count jobInstance name =>
    exact .of_asks (Program.asks_bind (Program.asks_request (site.quiet_count _ _) fun _ => trivial)
      fun _ _ => ⟨rfl, fun e => nofun⟩)
  | seed name initial note =>
    have hseed := site.quiet_seed name _ (Sequence.Counter.get?_id_seeding initial note)
    exact .of_asks (Program.asks_bind (Operation.asks_seed initial note hseed)
      fun _ _ => ⟨rfl, fun e => nofun⟩)
  | read name =>
    exact .of_asks (Program.asks_bind (Operation.asks_read (site.quiet_find _ _)) fun _ _ =>
      ⟨rfl, fun e => nofun⟩)

end StepLedger

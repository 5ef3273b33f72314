import StepLedger.Proofs.Sequence.Gapless

/-!
# Why an allocation by rounds ends

A round reads the counter and writes it on the condition that it still has the value that was read. A
value that was read is matched by the condition on it, so a round is lost only if another request has
come between which changed the document of the counter or took it away (`Moment.disturbs`). The
`Stage` of a call counts its requests: two for every round that was lost, and there are no more of
these than disturbances. So each disturbance costs one round at most, and with none of them the first
round is the last (`World.swap_ends`).
-/

namespace StepLedger

open Sequence

variable {κ α : Type} {collection name : String}

/-- The request changed the document of the counter or took it away. -/
def Moment.disturbs (collection name : String) (m : Moment κ α) : Bool :=
  match m.before.counter? collection name, m.after.counter? collection name with
  | some before, some after => !after.same before
  | some _, none => true
  | none, _ => false

/-! ## The document between two requests -/

namespace Store

variable {s s' : Store} {v : Int64}

/-- The counter has a document with the value. -/
def Stands (s : Store) (collection name : String) (v : Int64) : Prop :=
  ∃ d, s.counter? collection name = some d ∧ d.get? valueField = some (.number (.ofInt64 v))

theorem Stands.of_alike (h : s.Stands collection name v) (halike : s.Alike s') :
    s'.Stands collection name v := by
  rw [Stands, counter?_of_alike halike]
  exact h

/-- The document stays, unless a request disturbs it. -/
theorem Stands.or_disturbs {m : Moment κ α} (h : m.before.Stands collection name v) :
    m.after.Stands collection name v ∨ m.disturbs collection name = true := by
  obtain ⟨d, hd, hv⟩ := h
  rw [Moment.disturbs, hd]
  cases hafter : m.after.counter? collection name with
  | none => exact .inr rfl
  | some d' =>
    cases hsame : d'.same d with
    | false => exact .inr (by simp [hsame])
    | true =>
      exact .inl ⟨d', hafter, Document.get?_eq_of_same (Json.exact_ofInt64 v) hsame hv⟩

/-- What stands is matched by the condition that it stands, whatever else is in the document. -/
theorem Stands.matched (h : s.Stands collection name v) (hs : s.WellFormed) {u : Update}
    {result : UpdateResult} (hupdate : s.updateFirst collection
      ((Filter.byId (.string name)).and valueField (.ofInt64 v)) u = (.ok result, s')) :
    result.matched = 1 := by
  obtain ⟨d, hd, hv⟩ := h
  obtain ⟨i, hi, hid⟩ := (counter?_eq_some_iff hs).1 hd
  obtain ⟨hnone, -⟩ | ⟨_, _, _, -, -, hone, -⟩ := updateFirst_ok hs hupdate
  · rw [Collection.first?_eq_none_iff (hs collection).1 (Filter.idValue?_byId_and _ _ _)
      (Json.exact_string name)] at hnone
    have hnot := hnone d (List.mem_of_getElem? hi)
    rw [(Filter.selects_byId_and_iff (Json.exact_string name) (Json.exact_ofInt64 v)).2
      ⟨hid, hv⟩] at hnot
    cases hnot
  · exact hone

end Store

namespace Sequence.Allocator

variable {s : Store}

/-- Where a round goes on after the counter was read, the value that was read stands. -/
theorem observed_cases (s : Store) (collection name : String) :
    (∃ e, ∀ rounds, observed collection name rounds
      ((s.view collection).find (.byId (.string name))) = .fail e) ∨
    ∃ v next, s.Stands collection name v ∧ ∀ rounds, observed collection name rounds
      ((s.view collection).find (.byId (.string name))) = attempt collection name rounds v next := by
  cases hfound : Counter.ofFound collection name (s.counter? collection name) with
  | error e => exact .inl ⟨e, fun rounds => Program.ofExcept_bind_error hfound⟩
  | ok counter =>
    obtain ⟨d, hd, hdecode⟩ := ofFound_eq_ok_iff.1 hfound
    cases hnext : Update.addChecked counter.value 1 with
    | none => exact .inl ⟨_, fun rounds => (observed_eq hd hdecode).trans (by rw [hnext])⟩
    | some next =>
      exact .inr ⟨counter.value, next, ⟨d, hd, (Counter.decode_eq_ok_iff.1 hdecode).2.1⟩,
        fun rounds => (observed_eq hd hdecode).trans (by rw [hnext])⟩

/-- At the beginning of a round the counter is to be read, or there are no rounds left. -/
theorem swap_cases (collection name : String) (rounds : Nat) :
    swap collection name rounds = .stalled ∨ ∃ left, rounds = left + 1 ∧
      swap collection name rounds =
        .ask (.find collection (.byId (.string name))) (observed collection name left) := by
  cases rounds with
  | zero => exact .inl rfl
  | succ rounds => exact .inr ⟨rounds, rfl, swap_succ_eq rounds⟩

theorem attempt_ne_swap {rounds rounds' : Nat} {v next : Int64} :
    attempt collection name rounds v next ≠ swap collection name rounds' := by
  obtain h | ⟨_, -, h⟩ := swap_cases collection name rounds' <;> rw [h] <;> nofun

theorem ended_ne_swap {left : Program Int64} {rounds : Nat}
    (h : (∃ a, left = .done a) ∨ ∃ e, left = .fail e) : left ≠ swap collection name rounds := by
  obtain ⟨_, rfl⟩ | ⟨_, rfl⟩ := h <;>
    obtain h | ⟨_, -, h⟩ := swap_cases collection name rounds <;> rw [h] <;> nofun

/-- What stands is written over in the round in which it was read. -/
theorem run_attempt_alone (hs : s.WellFormed) {v : Int64} (hstands : s.Stands collection name v)
    (next : Int64) :
    ∃ outcome s', outcome ≠ .stalled ∧
      ∀ rounds, (attempt collection name rounds v next).run Store.answer s = (outcome, s') := by
  cases hanswer : s.updateFirst collection
      ((Filter.byId (.string name)).and valueField (.ofInt64 v))
      (Update.empty.andSet valueField (.ofInt64 next)) with
  | mk result s' =>
    cases result with
    | error e => exact ⟨.failed e, s', nofun, fun rounds => Program.run_ask_error hanswer⟩
    | ok result =>
      refine ⟨.returned next, s', nofun, fun rounds => ?_⟩
      have hrun : (attempt collection name rounds v next).run Store.answer s =
          (if result.matched = 1 then .done next else swap collection name rounds).run
            Store.answer s' := Program.run_ask_ok hanswer
      rw [hrun, if_pos (hstands.matched hs hanswer)]
      rfl

/-- With nobody else at work any number of rounds does what the first of them does. -/
theorem run_swap_alone (hs : s.WellFormed) : ∃ outcome s', outcome ≠ .stalled ∧
    ∀ rounds, (swap collection name (rounds + 1)).run Store.answer s = (outcome, s') := by
  obtain ⟨e, -, hfind⟩ | hfind := Store.find_eq s collection (.byId (.string name))
  · exact ⟨.failed e, s, nofun, fun rounds => Program.failed_of_eq_ask (swap_succ_eq rounds) hfind⟩
  have hrun : ∀ rounds, (swap collection name (rounds + 1)).run Store.answer s =
      (observed collection name rounds ((s.view collection).find (.byId (.string name)))).run
        Store.answer s := fun rounds => Program.run_of_eq_ask (swap_succ_eq rounds) hfind
  obtain ⟨e, hfail⟩ | ⟨v, next, hstands, hattempt⟩ := observed_cases s collection name
  · exact ⟨.failed e, s, nofun, fun rounds => by rw [hrun, hfail]; rfl⟩
  · obtain ⟨outcome, s', hended, hall⟩ := run_attempt_alone hs hstands next
    exact ⟨outcome, s', hended, fun rounds => by rw [hrun, hattempt, hall]⟩

end Sequence.Allocator

/-! ## Rounds -/

namespace Sequence

section Rounds

variable {i rounds : Nat} {s s' : Store} {past during : List (Moment κ Int64)} {left : Program Int64}

/-- The last request of a call so far was the first one of a round. -/
structure HalfRound (collection name : String) (i : Nat) (past first : List (Moment κ Int64))
    (read : Moment κ Int64) (between : List (Moment κ Int64)) : Prop where
  split : past = first ++ read :: between
  own : read.call = i
  reads : ∃ rounds v next, read.left = Allocator.attempt collection name rounds v next
  others : ∀ m ∈ between, m.call ≠ i

/-- A call has read the counter, and since then a request of another call has disturbed it. -/
def Disturbed (collection name : String) (i : Nat) (past : List (Moment κ Int64)) : Prop :=
  ∃ first read between, HalfRound collection name i past first read between ∧
    ∃ m ∈ between, m.disturbs collection name = true

/-- How many requests a call has asked. -/
def requests (i : Nat) (during : List (Moment κ Int64)) : Nat := during.countP fun m => m.call = i

/-- How many requests of other calls have disturbed a counter. -/
def disturbances (collection name : String) (i : Nat) (during : List (Moment κ Int64)) : Nat :=
  during.countP fun m => m.call ≠ i && m.disturbs collection name

/-- How far a call is that began with a number of rounds. -/
inductive Stage (collection name : String) (rounds i : Nat) (s : Store)
    (during : List (Moment κ Int64)) (left : Program Int64) : Prop
  /-- It has lost rounds and is to read the counter. -/
  | reading {k lost : Nat} (begins : left = Allocator.swap collection name k)
    (all : lost + k = rounds) (count : requests i during = 2 * lost)
    (few : lost ≤ disturbances collection name i during)
  /-- It has read the counter and is to write it. What it has read stands, or was disturbed. -/
  | writing {k lost : Nat} {v next : Int64} {first between : List (Moment κ Int64)}
    {read : Moment κ Int64} (goesOn : left = Allocator.attempt collection name k v next)
    (all : lost + (k + 1) = rounds) (count : requests i during = 2 * lost + 1)
    (few : lost ≤ disturbances collection name i first)
    (half : HalfRound collection name i during first read between)
    (stands : s.Stands collection name v ∨ ∃ m ∈ between, m.disturbs collection name = true)
  /-- It is over. -/
  | ended (result : (∃ a, left = .done a) ∨ ∃ e, left = .fail e)
    (count : requests i during ≤ 2 * (disturbances collection name i during + 1))

theorem requests_append (i : Nat) (first second : List (Moment κ Int64)) :
    requests i (first ++ second) = requests i first + requests i second := List.countP_append

theorem disturbances_append (collection name : String) (i : Nat)
    (first second : List (Moment κ Int64)) : disturbances collection name i (first ++ second) =
      disturbances collection name i first + disturbances collection name i second :=
  List.countP_append

theorem requests_own {m : Moment κ Int64} (h : m.call = i) :
    requests i (during ++ [m]) = requests i during + 1 := by
  rw [requests_append, requests, requests, List.countP_singleton, if_pos (by simpa using h)]

theorem requests_other {m : Moment κ Int64} (h : m.call ≠ i) :
    requests i (during ++ [m]) = requests i during := by
  rw [requests_append, requests, requests, List.countP_singleton, if_neg (by simpa using h)]
  rfl

theorem disturbances_le (m : Moment κ Int64) : disturbances collection name i during ≤
    disturbances collection name i (during ++ [m]) := by
  rw [disturbances_append]
  exact Nat.le_add_right _ _

theorem HalfRound.disturbances_le {first between : List (Moment κ Int64)} {read : Moment κ Int64}
    (h : HalfRound collection name i during first read between) :
    disturbances collection name i first ≤ disturbances collection name i during := by
  rw [h.split, disturbances_append]
  exact Nat.le_add_right _ _

/-- A disturbance within a round is counted after those before the round. -/
theorem HalfRound.disturbances_lt {first between : List (Moment κ Int64)} {read : Moment κ Int64}
    (h : HalfRound collection name i during first read between)
    (hdisturbed : ∃ m ∈ between, m.disturbs collection name = true) :
    disturbances collection name i first < disturbances collection name i during := by
  obtain ⟨m, hm, hdisturbs⟩ := hdisturbed
  have hone : 0 < disturbances collection name i between :=
    List.countP_pos_iff.2 ⟨m, hm, by simpa [hdisturbs] using h.others m hm⟩
  rw [h.split, ← List.singleton_append, disturbances_append, disturbances_append]
  omega

namespace Stage

/-- A store that shows the same documents makes no difference. -/
theorem rest (h : Stage collection name rounds i s during left) (halike : s.Alike s') :
    Stage collection name rounds i s' during left := by
  cases h with
  | reading begins all count few => exact .reading begins all count few
  | writing goesOn all count few half stands =>
    exact .writing goesOn all count few half (stands.imp_left fun h => h.of_alike halike)
  | ended result count => exact .ended result count

/-- A request of another call may only disturb what was read. -/
theorem other {m : Moment κ Int64} (h : Stage collection name rounds i m.before during left)
    (hm : m.call ≠ i) : Stage collection name rounds i m.after (during ++ [m]) left := by
  have hle : disturbances collection name i during ≤ _ := disturbances_le m
  cases h with
  | reading begins all count few =>
    exact .reading begins all ((requests_other hm).trans count) (Nat.le_trans few hle)
  | @writing k lost v next first between read goesOn all count few half stands =>
    have hhalf : HalfRound collection name i (during ++ [m]) first read (between ++ [m]) := by
      refine ⟨by rw [half.split, List.append_assoc]; rfl, half.own, half.reads, fun m' hm' => ?_⟩
      obtain hm' | hm' := List.mem_append.1 hm'
      · exact half.others m' hm'
      · rwa [List.mem_singleton.1 hm']
    refine .writing goesOn all ((requests_other hm).trans count) few hhalf ?_
    obtain hstands | ⟨m', hm', hdisturbs⟩ := stands
    · exact hstands.or_disturbs.imp_right fun hdisturbs =>
        ⟨m, List.mem_append_right _ List.mem_cons_self, hdisturbs⟩
    · exact .inr ⟨m', List.mem_append_left _ hm', hdisturbs⟩
  | ended result count =>
    exact .ended result (by rw [requests_other hm]; omega)

/-- A request of the call itself that ends the call begins no round. -/
theorem ends {m : Moment κ Int64} (hcall : m.call = i)
    (hcount : requests i during ≤ 2 * disturbances collection name i during + 1)
    (hended : (∃ a, m.left = .done a) ∨ ∃ e, m.left = .fail e) :
    Stage collection name rounds i m.after (during ++ [m]) m.left ∧
      ∀ k, m.left = Allocator.swap collection name k → Disturbed collection name i during := by
  have hle : disturbances collection name i during ≤ _ := disturbances_le m
  exact ⟨.ended hended (by rw [requests_own hcall]; omega),
    fun k hk => absurd hk (Allocator.ended_ne_swap hended)⟩

/-- The counter is read; then it is to be written, or the call is over. -/
theorem read {k lost : Nat} {m : Moment κ Int64} (all : lost + (k + 1) = rounds)
    (count : requests i during = 2 * lost) (few : lost ≤ disturbances collection name i during)
    (hcall : m.call = i) (hafter : m.after = s)
    (hleft : (∃ e, m.left = .fail e) ∨ m.left =
      Allocator.observed collection name k ((s.view collection).find (.byId (.string name)))) :
    Stage collection name rounds i m.after (during ++ [m]) m.left ∧
      ∀ k, m.left = Allocator.swap collection name k → Disturbed collection name i during := by
  obtain hfail | hleft := hleft
  · exact ends hcall (by omega) (.inr hfail)
  obtain ⟨e, hfail⟩ | ⟨v, next, hstands, hattempt⟩ := Allocator.observed_cases s collection name
  · exact ends hcall (by omega) (.inr ⟨e, hleft.trans (hfail k)⟩)
  · replace hleft := hleft.trans (hattempt k)
    have hhalf : HalfRound collection name i (during ++ [m]) during m [] :=
      ⟨rfl, hcall, ⟨k, v, next, hleft⟩, fun _ h => absurd h List.not_mem_nil⟩
    have hcount : requests i (during ++ [m]) = 2 * lost + 1 := by rw [requests_own hcall, count]
    refine ⟨.writing hleft all hcount few hhalf (.inl (hafter ▸ hstands)), fun k' hk' => ?_⟩
    exact absurd (hleft.symm.trans hk') Allocator.attempt_ne_swap

/-- The counter is written, or the round is lost because what was read was disturbed. -/
theorem write (next : Int64) {k lost : Nat} {v : Int64} {first between : List (Moment κ Int64)}
    {m read : Moment κ Int64} (hs : s.WellFormed) (all : lost + (k + 1) = rounds)
    (count : requests i during = 2 * lost + 1) (few : lost ≤ disturbances collection name i first)
    (half : HalfRound collection name i during first read between)
    (stands : s.Stands collection name v ∨ ∃ m ∈ between, m.disturbs collection name = true)
    (hcall : m.call = i)
    (hleft : (∃ e, m.left = .fail e) ∨ ∃ result s', s.updateFirst collection
        ((Filter.byId (.string name)).and valueField (.ofInt64 v))
        (Update.empty.andSet valueField (.ofInt64 next)) = (.ok result, s') ∧
      m.left = if result.matched = 1 then .done next else Allocator.swap collection name k) :
    Stage collection name rounds i m.after (during ++ [m]) m.left ∧
      ∀ k, m.left = Allocator.swap collection name k → Disturbed collection name i during := by
  have hfew := Nat.le_trans few half.disturbances_le
  have hle : disturbances collection name i during ≤ _ := disturbances_le m
  obtain hfail | ⟨result, s', hanswer, hleft⟩ := hleft
  · exact ends hcall (by omega) (.inr hfail)
  by_cases hone : result.matched = 1
  · rw [if_pos hone] at hleft
    exact ends hcall (by omega) (.inl ⟨next, hleft⟩)
  · rw [if_neg hone] at hleft
    have hdisturbed := stands.resolve_left fun hstands => hone (hstands.matched hs hanswer)
    have hlt := half.disturbances_lt hdisturbed
    have hall : lost + 1 + k = rounds := by omega
    exact ⟨.reading hleft hall (by rw [requests_own hcall, count]; omega) (by omega),
      fun _ _ => ⟨first, read, between, half, hdisturbed⟩⟩

/-- A request of the call itself: the counter is read, or a round is won, or it is lost because of a
disturbance. -/
theorem own {what : κ} {request : Request} {next : request.Answer → Program Int64}
    (h : Stage collection name rounds i s during (.ask request next)) (hs : s.WellFormed)
    {m : Moment κ Int64} (hm : m = ⟨i, what, s, (s.answer request).2,
      Program.resume next (s.answer request).1⟩) :
    Stage collection name rounds i m.after (during ++ [m]) m.left ∧
      ∀ k, m.left = Allocator.swap collection name k → Disturbed collection name i during := by
  have hcall : m.call = i := by rw [hm]
  cases h with
  | @reading k lost begins all count few =>
    obtain hstalled | ⟨k, rfl, hswap⟩ := Allocator.swap_cases collection name k
    · cases begins.trans hstalled
    cases begins.trans hswap
    have hafter : m.after = s := by
      rw [hm]
      exact Store.snd_find s collection _
    refine read all count few hcall hafter ?_
    obtain ⟨e, -, hfind⟩ | hfind := Store.find_eq s collection (.byId (.string name))
    · exact .inl ⟨e, by rw [hm, Store.answer, hfind]; rfl⟩
    · exact .inr (by rw [hm, Store.answer, hfind]; rfl)
  | @writing k lost v next first between before goesOn all count few half stands =>
    cases goesOn
    refine write next hs all count few half stands hcall ?_
    cases hanswer : s.updateFirst collection
        ((Filter.byId (.string name)).and valueField (.ofInt64 v))
        (Update.empty.andSet valueField (.ofInt64 next)) with
    | mk result s' =>
      cases result with
      | error e => exact .inl ⟨e, by rw [hm, Store.answer, hanswer]; rfl⟩
      | ok result => exact .inr ⟨result, s', rfl, by rw [hm, Store.answer, hanswer]; rfl⟩
  | ended result => obtain ⟨_, h⟩ | ⟨_, h⟩ := result <;> cases h

/-- With few disturbances few requests were asked, and a call that is not over has another one to ask. -/
theorem requests_le {n : Nat} (h : Stage collection name rounds i s during left)
    (hfew : disturbances collection name i during ≤ n) (hrounds : n < rounds) :
    requests i during ≤ 2 * (n + 1) ∧
      (((∃ a, left = .done a) ∨ ∃ e, left = .fail e) ∨
        requests i during < 2 * (n + 1) ∧ ∃ request next, left = .ask request next) := by
  cases h with
  | @reading k lost begins all count few =>
    -- a round is left, because fewer were lost than there are
    obtain ⟨k, rfl⟩ : ∃ fewer, k = fewer + 1 := ⟨k - 1, by omega⟩
    exact ⟨by omega, .inr ⟨by omega, _, _, begins.trans (Allocator.swap_succ_eq k)⟩⟩
  | writing goesOn all count few half =>
    have hlost := Nat.le_trans few half.disturbances_le
    exact ⟨by omega, .inr ⟨by omega, _, _, goesOn⟩⟩
  | ended result count => exact ⟨by omega, .inl result⟩

end Stage

/-- Where a request of a call left it at the beginning of a round, it was disturbed within the round
before. -/
def LossesDisturbed (collection name : String) (i : Nat) (during : List (Moment κ Int64)) : Prop :=
  ∀ pre m post k, during = pre ++ m :: post → m.call = i →
    m.left = Allocator.swap collection name k → Disturbed collection name i pre

theorem LossesDisturbed.append {m : Moment κ Int64} (h : LossesDisturbed collection name i during)
    (hm : m.call = i → ∀ k, m.left = Allocator.swap collection name k →
      Disturbed collection name i during) :
    LossesDisturbed collection name i (during ++ [m]) := by
  intro pre m' post k hsplit hcall hleft
  obtain rfl | ⟨post, last, rfl⟩ := List.eq_nil_or_concat post
  · obtain ⟨rfl, heq⟩ := List.append_inj' hsplit rfl
    cases heq
    exact hm hcall k hleft
  · rw [List.concat_eq_append, ← List.cons_append, ← List.append_assoc] at hsplit
    exact h pre m' post k (List.append_inj' hsplit rfl).1 hcall hleft

end Rounds

end Sequence

namespace World

/-! ## The call among others -/

section Follows

variable {program : κ → Program Int64} {w₀ w : World κ Int64} {what : κ} {rounds i : Nat}
  {past during : List (Moment κ Int64)} {left : Program Int64} {moves : List (Move κ)}

/-- A call for the next value as it is when some requests have been answered since it started. -/
structure Follows (collection name : String) (rounds i : Nat) (what : κ)
    (past during : List (Moment κ Int64)) (left : Program Int64) (w : World κ Int64) : Prop where
  history : w.history = past ++ during
  call : w.calls[i]? = some ⟨what, left⟩
  stage : Stage collection name rounds i w.store during left
  losses : LossesDisturbed collection name i during

theorem Follows.answer (h : Follows collection name rounds i what past during left w)
    (hs : w.store.WellFormed) {j : Nat} {what' : κ} {request : Request}
    {next : request.Answer → Program Int64} (hj : w.calls[j]? = some ⟨what', .ask request next⟩) :
    ∃ during left, Follows collection name rounds i what past during left
      (w.answer j what' request next) := by
  obtain ⟨m, hm⟩ : ∃ m : Moment κ Int64, m = ⟨j, what', w.store, (w.store.answer request).2,
    Program.resume next (w.store.answer request).1⟩ := ⟨_, rfl⟩
  have hcall : m.call = j := by rw [hm]
  have hstore : (w.answer j what' request next).store = m.after := by rw [hm]; rfl
  have hhistory : (w.answer j what' request next).history = past ++ (during ++ [m]) := by
    rw [history_answer, h.history, hm, List.append_assoc]
  by_cases hij : j = i
  · subst hij
    cases h.call.symm.trans hj
    obtain ⟨hstage, hlost⟩ := h.stage.own hs hm
    refine ⟨during ++ [m], m.left, hhistory, ?_, hstore ▸ hstage, h.losses.append fun _ => hlost⟩
    rw [getElem?_calls_answer hj, if_pos rfl, hm]
  · have hother : m.call ≠ i := hcall ▸ hij
    have hstage : Stage collection name rounds i m.before during left := by
      rw [hm]
      exact h.stage
    refine ⟨during ++ [m], left, hhistory, ?_, hstore ▸ hstage.other hother,
      h.losses.append fun heq => absurd heq hother⟩
    rw [getElem?_calls_answer hj, if_neg hij, h.call]

/-- A call that has just started is at its first round, or its sequence has no proper name. -/
theorem follows_start (w₀ : World κ Int64) (what : κ) (collection name : String) (rounds : Nat) :
    Follows collection name rounds w₀.calls.length what w₀.history []
      ((⟨collection, .compareAndSwap, rounds⟩ : Allocator).next name)
      (w₀.start what ((⟨collection, .compareAndSwap, rounds⟩ : Allocator).next name)) where
  history := (List.append_nil _).symm
  call := by rw [start, List.getElem?_concat_length]
  stage := by
    cases hname : checkName name with
    | error e => exact .ended (.inr ⟨e, Allocator.next_of_error hname⟩) (Nat.zero_le _)
    | ok _ => exact .reading (Allocator.next_of_ok hname) (Nat.zero_add rounds) rfl (Nat.zero_le _)
  losses := fun pre _ _ _ hsplit => by simp at hsplit

theorem follows_run (hw : w₀.store.Reachable)
    (hrun : (w₀.start what ((⟨collection, .compareAndSwap, rounds⟩ : Allocator).next name)).run
      program moves = w) : ∃ during left,
      Follows collection name rounds w₀.calls.length what w₀.history during left w := by
  subst hrun
  refine run_induction_of_reachable (motive := fun w => ∃ during left,
    Follows collection name rounds w₀.calls.length what w₀.history during left w)
    (w := w₀.start what ((⟨collection, .compareAndSwap, rounds⟩ : Allocator).next name)) hw
    ⟨[], _, follows_start w₀ what collection name rounds⟩ ?_ ?_ ?_ moves
  · rintro w what' ⟨during, left, h⟩
    refine ⟨during, left, h.history, ?_, h.stage, h.losses⟩
    rw [start, List.getElem?_append_left (List.getElem?_eq_some_iff.1 h.call).1, h.call]
  · rintro w j what' request next hs ⟨during, left, h⟩ hj
    exact h.answer hs.wellFormed hj
  · rintro w store ⟨during, left, h⟩ halike
    exact ⟨during, left, h.history, h.call, h.stage.rest halike, h.losses⟩

/-- Let a call for the next value start in any world and others do what they like. It loses a round only
if a request of another call changed or took away the document of the counter between the two requests
of the round. If that has happened at most `n` times since the call started, the call has asked the
requests of at most `n + 1` rounds, and it is over when it was let ask as many; more rounds than these
are not needed. With nobody else at work one round suffices, whatever is stored. -/
theorem swap_ends (hw : w₀.store.Reachable)
    (hrun : (w₀.start what ((⟨collection, .compareAndSwap, rounds⟩ : Allocator).next name)).run
      program moves = w) :
    (∃ during, w.history = w₀.history ++ during ∧
      (∀ pre m post k, during = pre ++ m :: post → m.call = w₀.calls.length →
        m.left = Allocator.swap collection name k →
        Disturbed collection name w₀.calls.length pre) ∧
      ∀ n, disturbances collection name w₀.calls.length during ≤ n → n < rounds →
        requests w₀.calls.length during ≤ 2 * (n + 1) ∧
        w.calls[w₀.calls.length]? ≠ some ⟨what, .stalled⟩ ∧
        (2 * (n + 1) ≤ moves.countP (Move.asks w₀.calls.length) →
          (∃ a, w.Returned w₀.calls.length a) ∨ ∃ e, w.Failed w₀.calls.length e)) ∧
    ∃ outcome s', outcome ≠ .stalled ∧ ∀ rounds,
      ((⟨collection, .compareAndSwap, rounds + 1⟩ : Allocator).next name).run Store.answer
        w₀.store = (outcome, s') := by
  constructor
  · obtain ⟨during, left, h⟩ := follows_run hw hrun
    refine ⟨during, h.history, h.losses, fun n hfew hrounds => ?_⟩
    obtain ⟨hasked, hended | ⟨hless, request, next, rfl⟩⟩ := h.stage.requests_le hfew hrounds
    · refine ⟨hasked, ?_, fun _ => ?_⟩
      · rw [h.call]
        obtain ⟨a, rfl⟩ | ⟨e, rfl⟩ := hended <;> simp
      · obtain ⟨a, rfl⟩ | ⟨e, rfl⟩ := hended
        · exact .inl ⟨a, what, h.call⟩
        · exact .inr ⟨e, what, h.call⟩
    · refine ⟨hasked, by rw [h.call]; simp, fun hmoves => ?_⟩
      -- a call that is not over has asked as often as it was let
      have hcount := countP_history_of_pending (by simp [start]) (hrun ▸ h.call)
      rw [hrun, h.history, List.countP_append] at hcount
      have hall : requests w₀.calls.length during = moves.countP (Move.asks w₀.calls.length) :=
        Nat.add_left_cancel hcount
      omega
  · cases hname : checkName name with
    | error e =>
      refine ⟨.failed e, w₀.store, by simp, fun rounds => ?_⟩
      rw [Allocator.next_of_error hname]
      rfl
    | ok _ =>
      obtain ⟨outcome, s', hended, hall⟩ := Allocator.run_swap_alone hw.wellFormed
      refine ⟨outcome, s', hended, fun rounds => ?_⟩
      rw [Allocator.next_of_ok hname]
      exact hall rounds

end Follows

/-- A call in two rounds after the moves of a race, in which another call advances the counter between
the two requests of the first round. -/
def raced : World Manner Int64 :=
  ((ofStore counting).start (.compareAndSwap, 2)
    ((⟨"counters", .compareAndSwap, 2⟩ : Allocator).next "steps")).run (nextValue "counters" "steps")
      race.tail

/-- The first round is lost and the second ends the call. -/
theorem swap_ends_in_race : counting.Reachable ∧
    disturbances "counters" "steps" 0 raced.history = 1 ∧ requests 0 raced.history ≤ 4 ∧
      ((∃ a, raced.Returned 0 a) ∨ ∃ e, raced.Failed 0 e) := by
  have hcounting : counting.Reachable := .answer _ .inMemory
  have hrun : ((ofStore counting).start ((.compareAndSwap, 2) : Manner)
      ((⟨"counters", .compareAndSwap, 2⟩ : Allocator).next "steps")).run
        (nextValue "counters" "steps") race.tail = raced := rfl
  obtain ⟨⟨during, hhistory, -, hbound⟩, -⟩ := swap_ends hcounting hrun
  obtain rfl : raced.history = during := hhistory
  have hone : disturbances "counters" "steps" 0 raced.history = 1 := by decide +kernel
  obtain ⟨hasked, -, hover⟩ := hbound 1 (Nat.le_of_eq hone) (by decide)
  exact ⟨hcounting, hone, hasked, hover (by decide)⟩

end World

end StepLedger

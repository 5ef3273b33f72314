import Mathlib.Data.List.Perm.Subperm
import StepLedger.Proofs.Sequence.Allocates
import StepLedger.Proofs.World

/-!
# The values handed out

Any number of calls for the next value of a sequence run at once on one store, each by the strategy
of its choice. A request that moves the last value of the counter is a commit of the call that asked
it. The invariant `Tally` of a run counts the commits: they carry the numbers after the first value
one by one, each belongs to another call, and a call has returned exactly what it committed.
-/

namespace StepLedger

open Sequence

/-- The value that a request committed and the call that asked it. -/
def Moment.committed? {κ α : Type} (collection name : String) (m : Moment κ α) :
    Option (Nat × Int64) :=
  if m.after.lastValue? collection name = m.before.lastValue? collection name then none
  else (m.after.lastValue? collection name).map fun n => (m.call, n)

/-- The values committed so far, in order, each with the call that committed it. -/
def World.committed {κ α : Type} (w : World κ α) (collection name : String) : List (Nat × Int64) :=
  w.history.filterMap (Moment.committed? collection name)

namespace Sequence

/-- How a client asks for a value: by which strategy and in how many rounds at most. -/
abbrev Manner := Strategy × Nat

/-- A call for the next value of a sequence. -/
def nextValue (collection name : String) (manner : Manner) : Program Int64 :=
  Allocator.next ⟨collection, manner.1, manner.2⟩ name

/-- What may make a call fail after `committed` values since `v`. -/
def Hindered (collection name : String) (v : Int64) (committed : Nat) (e : StoreError) : Prop :=
  e.IsOutage ∨ Store.isName collection = false ∨ checkName name ≠ .ok () ∨
    9223372036854775807 ≤ v.toInt + committed

theorem Hindered.mono {collection name : String} {v : Int64} {m n : Nat} {e : StoreError}
    (h : Hindered collection name v m e) (hle : m ≤ n) : Hindered collection name v n e := by
  obtain h | h | h | h := h
  · exact .inl h
  · exact .inr (.inl h)
  · exact .inr (.inr (.inl h))
  · exact .inr (.inr (.inr (by omega)))

/-- The commits since the counter had the value `v`. -/
structure Tally (collection name : String) (v : Int64) (w : World Manner Int64) : Prop where
  wellFormed : w.store.WellFormed
  /-- The stored value counts the commits. -/
  stored : ∃ n : Int64, w.store.lastValue? collection name = some n ∧
    n.toInt = v.toInt + (w.committed collection name).length
  /-- The commits carry consecutive numbers. -/
  values : (w.committed collection name).map (·.2.toInt) =
    (List.range (w.committed collection name).length).map fun (k : Nat) => v.toInt + 1 + k
  /-- No call commits twice. -/
  nodup : ((w.committed collection name).map (·.1)).Nodup
  /-- What was committed was returned. -/
  returned : ∀ i n, (i, n) ∈ w.committed collection name → w.Returned i n
  /-- A call that has not committed is still to allocate, or has failed. -/
  pending : ∀ i call, w.calls[i]? = some call →
    i ∉ (w.committed collection name).map (·.1) →
    Allocates collection name call.left ∨
      ∃ e, call.left = .fail e ∧ Hindered collection name v (w.committed collection name).length e

variable {collection name : String} {v : Int64}

/-! ## What a request commits -/

theorem committed_answer (w : World Manner Int64) (i : Nat) (what : Manner) (request : Request)
    (next : request.Answer → Program Int64) :
    (w.answer i what request next).committed collection name = w.committed collection name ++
      (Moment.committed? collection name ⟨i, what, w.store, (w.store.answer request).2,
        Program.resume next (w.store.answer request).1⟩).toList := by
  rw [World.committed, World.history_answer, List.filterMap_append]
  congr 1

theorem committed?_of_alike {κ α : Type} {m : Moment κ α} (h : m.before.Alike m.after) :
    m.committed? collection name = none := by
  rw [Moment.committed?, if_pos (Store.lastValue?_of_alike h collection name)]

theorem committed?_of_advances {κ α : Type} {m : Moment κ α} {n n' : Int64}
    (hbefore : m.before.lastValue? collection name = some n) (hne : n' ≠ n)
    (h : m.before.Advances m.after collection name n') :
    m.committed? collection name = some (m.call, n') := by
  rw [Moment.committed?, h.value, hbefore, if_neg (by simpa using hne)]
  rfl

/-! ## The tally is kept -/

namespace Tally

variable {w : World Manner Int64}

theorem init {s : Store} (hs : s.WellFormed) (hv : s.lastValue? collection name = some v) :
    Tally collection name v (World.ofStore s) where
  wellFormed := hs
  stored := ⟨v, hv, by simp [World.ofStore, World.committed]⟩
  values := rfl
  nodup := List.nodup_nil
  returned := by simp [World.ofStore, World.committed]
  pending := by simp [World.ofStore]

/-- Calls that have committed are among those that have started. -/
theorem lt_length (h : Tally collection name v w) {i : Nat}
    (hi : i ∈ (w.committed collection name).map (·.1)) : i < w.calls.length := by
  obtain ⟨⟨i, n⟩, hm, rfl⟩ := List.mem_map.1 hi
  obtain ⟨what, hcall⟩ := h.returned i n hm
  exact (List.getElem?_eq_some_iff.1 hcall).1

/-- A call that has not returned has not committed. -/
theorem notMem_of_not_returned (h : Tally collection name v w) {i : Nat}
    {call : Call Manner Int64} (hcall : w.calls[i]? = some call)
    (hleft : ∀ n, call.left ≠ .done n) : i ∉ (w.committed collection name).map (·.1) := by
  intro hi
  obtain ⟨⟨_, n⟩, hm, rfl⟩ := List.mem_map.1 hi
  obtain ⟨what, hdone⟩ := h.returned _ n hm
  rw [hcall] at hdone
  cases hdone
  exact hleft n rfl

theorem start (h : Tally collection name v w) (manner : Manner) :
    Tally collection name v (w.start manner (nextValue collection name manner)) where
  wellFormed := h.wellFormed
  stored := h.stored
  values := h.values
  nodup := h.nodup
  returned i n hm := by
    obtain ⟨what, hcall⟩ := h.returned i n hm
    refine ⟨what, ?_⟩
    rw [World.start, List.getElem?_append_left (List.getElem?_eq_some_iff.1 hcall).1, hcall]
  pending i call hcall hnot := by
    rw [World.start, List.getElem?_append] at hcall
    split at hcall
    · exact h.pending i call hcall hnot
    · rw [List.getElem?_singleton] at hcall
      split at hcall
      · cases hcall
        cases hname : checkName name with
        | ok _ => exact .inl (Allocator.allocates_next (a := ⟨_, _, _⟩) hname)
        | error e =>
          refine .inr ⟨e, Allocator.next_of_error hname, .inr (.inr (.inl fun hok => ?_))⟩
          rw [hname] at hok
          cases hok
      · cases hcall

theorem rest (h : Tally collection name v w) {store : Store} (halike : w.store.Alike store) :
    Tally collection name v { w with store } where
  wellFormed := halike.wellFormed h.wellFormed
  stored := by
    obtain ⟨n, hn, hcount⟩ := h.stored
    exact ⟨n, (Store.lastValue?_of_alike halike collection name).trans hn, hcount⟩
  values := h.values
  nodup := h.nodup
  returned := h.returned
  pending := h.pending

/-- A request that commits nothing, with what is left of its call then. -/
theorem answer_of_alike (h : Tally collection name v w) {i : Nat} {manner : Manner}
    {request : Request} {next : request.Answer → Program Int64}
    (hcall : w.calls[i]? = some ⟨manner, .ask request next⟩)
    (halike : w.store.Alike (w.store.answer request).2)
    (hleft : Allocates collection name (Program.resume next (w.store.answer request).1) ∨
      ∃ e, Program.resume next (w.store.answer request).1 = .fail e ∧
        Hindered collection name v (w.committed collection name).length e) :
    Tally collection name v (w.answer i manner request next) := by
  have hcommitted : (w.answer i manner request next).committed collection name =
      w.committed collection name := by
    rw [committed_answer, committed?_of_alike (by exact halike)]
    simp
  refine ⟨halike.wellFormed h.wellFormed, ?_, ?_, ?_, ?_, ?_⟩
  · obtain ⟨n, hn, hcount⟩ := h.stored
    rw [hcommitted]
    exact ⟨n, (Store.lastValue?_of_alike halike collection name).trans hn, hcount⟩
  · rw [hcommitted]; exact h.values
  · rw [hcommitted]; exact h.nodup
  · intro j n hm
    rw [hcommitted] at hm
    obtain ⟨what, hj⟩ := h.returned j n hm
    refine ⟨what, ?_⟩
    rw [World.getElem?_calls_answer hcall, if_neg, hj]
    rintro rfl
    rw [hcall] at hj
    cases hj
  · intro j call hj hnot
    rw [hcommitted] at hnot ⊢
    rw [World.getElem?_calls_answer hcall] at hj
    split at hj
    · cases hj; exact hleft
    · exact h.pending j call hj hnot

/-- A request that advances the counter commits the new value for its call. -/
theorem answer_of_advances (h : Tally collection name v w) {i : Nat} {manner : Manner}
    {request : Request} {next : request.Answer → Program Int64} {n n' : Int64}
    (hcall : w.calls[i]? = some ⟨manner, .ask request next⟩)
    (hn : w.store.lastValue? collection name = some n) (hn' : Update.addChecked n 1 = some n')
    (hadvances : w.store.Advances (w.store.answer request).2 collection name n')
    (hleft : Program.resume next (w.store.answer request).1 = .done n') :
    Tally collection name v (w.answer i manner request next) := by
  have hcommitted : (w.answer i manner request next).committed collection name =
      w.committed collection name ++ [(i, n')] := by
    rw [committed_answer, committed?_of_advances hn (Update.ne_of_addChecked_one hn') hadvances]
    rfl
  have hnot := h.notMem_of_not_returned hcall fun _ => nofun
  have hvalue : n'.toInt = v.toInt + 1 + (w.committed collection name).length := by
    obtain ⟨stored, hstored, hcount⟩ := h.stored
    rw [hn] at hstored
    cases hstored
    have hsum := Update.addChecked_eq_some_iff.1 hn'
    have hone : (1 : Int64).toInt = 1 := rfl
    omega
  refine ⟨h.wellFormed.answer request, ⟨n', hadvances.value, ?_⟩, ?_, ?_, ?_, ?_⟩
  · rw [hcommitted, List.length_append, List.length_singleton]
    omega
  · rw [hcommitted, List.map_append, h.values, List.length_append, List.length_singleton,
      List.range_succ, List.map_append, List.map_singleton, List.map_singleton, hvalue]
  · rw [hcommitted, List.map_append]
    exact List.nodup_append.2 ⟨h.nodup, List.nodup_singleton _, by
      intro j hj j' hj' heq
      rw [List.map_singleton, List.mem_singleton] at hj'
      have hi : j = i := heq.trans hj'
      exact hnot (hi ▸ hj)⟩
  · intro j m hm
    rw [hcommitted, List.mem_append, List.mem_singleton] at hm
    rw [World.Returned, World.getElem?_calls_answer hcall]
    rcases hm with hm | heq
    · have hne : i ≠ j := fun heq => hnot (List.mem_map.2 ⟨_, hm, heq.symm⟩)
      rw [if_neg hne]
      exact h.returned j m hm
    · cases heq
      exact ⟨manner, by rw [if_pos rfl, hleft]⟩
  · intro j call hj hj'
    rw [hcommitted, List.map_append, List.mem_append, not_or] at hj'
    rw [World.getElem?_calls_answer hcall] at hj
    split at hj
    · next heq => exact absurd (by simp [heq]) hj'.2
    · rw [hcommitted, List.length_append, List.length_singleton]
      obtain hall | ⟨e, hfail, hcause⟩ := h.pending j call hj hj'.1
      · exact .inl hall
      · refine .inr ⟨e, hfail, hcause.mono ?_⟩
        omega

theorem answer (h : Tally collection name v w) {i : Nat} {manner : Manner}
    {request : Request} {next : request.Answer → Program Int64}
    (hcall : w.calls[i]? = some ⟨manner, .ask request next⟩) :
    Tally collection name v (w.answer i manner request next) := by
  have hnot := h.notMem_of_not_returned hcall fun _ => nofun
  obtain ⟨n, hn, hcount⟩ := h.stored
  obtain hall | ⟨e, hfail, -⟩ := h.pending i _ hcall hnot
  · have hasked := hall w.store n h.wellFormed hn
    have hspent : Update.addChecked n 1 = none →
        9223372036854775807 ≤ v.toInt + (w.committed collection name).length := by
      intro hnone
      have hone : (1 : Int64).toInt = 1 := rfl
      have := n.le_toInt
      have := Update.addChecked_eq_none_iff.1 hnone
      omega
    cases hanswer : w.store.answer request with
    | mk result s' =>
      rw [hanswer] at hasked
      cases hasked with
      | refused same cause =>
        refine h.answer_of_alike hcall (by rw [hanswer]; exact same) (.inr ⟨_, by rw [hanswer]; rfl, ?_⟩)
        obtain hkind | hname | hnone := cause
        · exact .inl hkind
        · exact .inr (.inl hname)
        · exact .inr (.inr (.inr (hspent hnone)))
      | exhausted same cause left =>
        exact h.answer_of_alike hcall (by rw [hanswer]; exact same)
          (.inr ⟨_, by rw [hanswer]; exact left, .inr (.inr (.inr (hspent cause)))⟩)
      | looked same left =>
        exact h.answer_of_alike hcall (by rw [hanswer]; exact same)
          (.inl (by rw [hanswer]; exact left))
      | advanced successor change left =>
        exact h.answer_of_advances hcall hn successor (by rw [hanswer]; exact change)
          (by rw [hanswer]; exact left)
  · cases hfail

/-- Every run keeps the tally. -/
theorem run (h : Tally collection name v w) (moves : List (Move Manner)) :
    Tally collection name v (w.run (nextValue collection name) moves) :=
  World.run_induction h (fun _ manner h => h.start manner)
    (fun _ _ _ _ _ h hcall => h.answer hcall) (fun _ _ h halike => h.rest halike) moves

/-! ## What the tally says -/

theorem value_eq (h : Tally collection name v w) {k i : Nat} {n : Int64}
    (hk : (w.committed collection name)[k]? = some (i, n)) : n.toInt = v.toInt + 1 + k := by
  have hlt := (List.getElem?_eq_some_iff.1 hk).1
  have hmap := congrArg (·[k]?) h.values
  simp only [List.getElem?_map, hk, List.getElem?_range hlt, Option.map_some] at hmap
  exact Option.some.inj hmap

/-- A call that returned a value committed it. -/
theorem mem_of_returned (h : Tally collection name v w) {i : Nat} {n : Int64}
    (hr : w.Returned i n) : (i, n) ∈ w.committed collection name := by
  obtain ⟨what, hcall⟩ := hr
  by_cases hi : i ∈ (w.committed collection name).map (·.1)
  · obtain ⟨⟨_, m⟩, hm, rfl⟩ := List.mem_map.1 hi
    obtain ⟨_, hcall'⟩ := h.returned _ m hm
    rw [hcall] at hcall'
    cases hcall'
    exact hm
  · obtain hall | ⟨e, hfail, -⟩ := h.pending i _ hcall hi
    · exact hall.elim
    · cases hfail

/-- While a call has not committed, fewer values are committed than calls have started. -/
theorem length_lt (h : Tally collection name v w) {i : Nat} (hi : i < w.calls.length)
    (hnot : i ∉ (w.committed collection name).map (·.1)) :
    (w.committed collection name).length < w.calls.length := by
  have hnodup : (i :: (w.committed collection name).map (·.1)).Nodup :=
    List.nodup_cons.2 ⟨hnot, h.nodup⟩
  have hsub : i :: (w.committed collection name).map (·.1) ⊆ List.range w.calls.length := by
    intro j hj
    rw [List.mem_range]
    rcases List.mem_cons.1 hj with rfl | hj
    · exact hi
    · exact h.lt_length hj
  have hle := (hnodup.subperm hsub).length_le
  rw [List.length_cons, List.length_map, List.length_range] at hle
  exact hle

end Tally

/-! ## Unique, gap-free and increasing -/

/-- Let the counter of a sequence have the value `v`, and let any number of calls for its next value
run in any order of their requests. At every point of the run the stored value is `v` plus the number
of commits. The committed values are the numbers after `v` one by one, each committed by another
call. A call returns a value if and only if it committed that value, and a call that starts after
another has returned gets a larger one. As long as `v` plus the number of calls is a word, a call
fails only with an outage. -/
theorem values_handed_out {s : Store} (hs : s.Reachable)
    (hv : s.lastValue? collection name = some v) (moves : List (Move Manner)) :
    let w := (World.ofStore s).run (nextValue collection name) moves
    let committed := w.committed collection name
    (∃ n : Int64, w.store.lastValue? collection name = some n ∧
      n.toInt = v.toInt + committed.length) ∧
    committed.map (·.2.toInt) =
      (List.range committed.length).map (fun (k : Nat) => v.toInt + 1 + k) ∧
    (committed.map (·.1)).Nodup ∧
    (∀ i n, w.Returned i n ↔ (i, n) ∈ committed) ∧
    (∀ (later : List (Move Manner)) (i j : Nat) (m n : Int64), w.Returned i m →
      w.calls.length ≤ j → (w.run (nextValue collection name) later).Returned j n →
      m.toInt < n.toInt) ∧
    (Store.isName collection = true → checkName name = .ok () →
      v.toInt + w.calls.length ≤ 9223372036854775807 →
      ∀ i e, w.Failed i e → e.IsOutage) := by
  intro w committed
  have h : Tally collection name v w := (Tally.init hs.wellFormed hv).run moves
  refine ⟨h.stored, h.values, h.nodup, fun i n => ⟨h.mem_of_returned, h.returned i n⟩, ?_, ?_⟩
  · intro later i j m n hi hj hlater
    have h' : Tally collection name v (w.run (nextValue collection name) later) := h.run later
    have hpre : committed <+: (w.run (nextValue collection name) later).committed collection name :=
      (World.history_prefix w later).filterMap _
    obtain ⟨a, ha⟩ := List.mem_iff_getElem?.1 (h.mem_of_returned hi)
    obtain ⟨b, hb⟩ := List.mem_iff_getElem?.1 (h'.mem_of_returned hlater)
    have halt : a < committed.length := (List.getElem?_eq_some_iff.1 ha).1
    -- the later call had not started when the commits so far were made
    have hble : committed.length ≤ b := by
      by_contra hlt
      rw [Nat.not_le] at hlt
      rw [List.prefix_iff_getElem?.1 hpre b hlt] at hb
      have hm : (j, n) ∈ committed := Option.some.inj hb ▸ List.getElem_mem hlt
      exact absurd (h.lt_length (List.mem_map_of_mem hm)) (Nat.not_lt.2 hj)
    have := h.value_eq ha
    have := h'.value_eq hb
    omega
  · intro hcollection hname hroom i e hfailed
    obtain ⟨what, hcall⟩ := hfailed
    have hi := (List.getElem?_eq_some_iff.1 hcall).1
    have hnot := h.notMem_of_not_returned hcall fun _ => nofun
    obtain hall | ⟨e', hfail, hcause⟩ := h.pending i _ hcall hnot
    · exact hall.elim
    · cases hfail
      have hlt := h.length_lt hi hnot
      obtain houtage | hcause | hcause | hcause := hcause
      · exact houtage
      · rw [hcollection] at hcause; cases hcause
      · exact absurd hname hcause
      · omega

/-- A store with a counter at zero. -/
def counting : Store :=
  (Store.inMemory.answer (.insertOne "counters"
    (Document.ofList [(idField, .string "steps"), (valueField, .ofInt64 0)]))).2

/-- Two calls race: the first one reads the counter before the second advances it, loses its round
and wins the next. -/
def race : List (Move Manner) :=
  [.start (.compareAndSwap, 2), .start (.atomicIncrement, 1), .ask 0, .ask 1, .ask 0, .ask 0, .ask 0]

theorem values_handed_out_in_race :
    counting.lastValue? "counters" "steps" = some 0 ∧
      ∀ i n, ((World.ofStore counting).run (nextValue "counters" "steps") race).Returned i n ↔
        (i, n) ∈ [(1, 1), (0, 2)] := by
  have hv : counting.lastValue? "counters" "steps" = some 0 := by decide +kernel
  obtain ⟨-, -, -, hreturned, -⟩ := values_handed_out (.answer _ .inMemory) hv race
  have hcommitted : ((World.ofStore counting).run (nextValue "counters" "steps") race).committed
      "counters" "steps" = [(1, 1), (0, 2)] := by decide +kernel
  refine ⟨hv, fun i n => ?_⟩
  rw [← hcommitted]
  exact hreturned i n

end Sequence

end StepLedger

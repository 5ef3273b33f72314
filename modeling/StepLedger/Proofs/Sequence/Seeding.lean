import StepLedger.Proofs.Sequence.Gapless
import StepLedger.Proofs.Sequence.Standing

/-!
# Seeding while values are allocated

Any number of calls seed one sequence, with whatever values and notes, and ask for its next value, all
at once. Until a seed gets through, every call fails and changes nothing (`Moment.Misses`). The first
one that does creates the counter (`Moment.Creates`), and every request from then on finds and leaves
it there (`Moment.Keeps`): no seed changes anything, and the value never falls.
-/

namespace StepLedger

open Sequence

namespace Program

/-- Nothing is left to ask. -/
def Over {α : Type} : Program α → Prop
  | .ask _ _ => False
  | _ => True

theorem over_ofExcept {α : Type} (result : Except StoreError α) : (ofExcept result).Over := by
  cases result <;> trivial

theorem over_bind_done {α β : Type} {p : Program α} (h : p.Over) (f : α → β) :
    (p.bind fun a => .done (f a)).Over := by
  cases p with
  | ask => exact h.elim
  | _ => trivial

theorem resume_bind {α β : Type} {request : Request} (next : request.Answer → Program α)
    (f : α → Program β) (result : Except StoreError request.Answer) :
    resume (fun answer => (next answer).bind f) result = (resume next result).bind f := by
  cases result <;> rfl

end Program

namespace Sequence

/-- What a client may want of a sequence. -/
inductive Demand where
  | seed (initial : Int64) (note : String)
  | next (manner : Manner)

/-- What is called for a demand; it returns the counter or the value. -/
def Demand.program (collection name : String) : Demand → Program (Counter ⊕ Int64)
  | seed initial note => (Counter.seed collection name initial note).bind fun c => .done (.inl c)
  | next manner => (nextValue collection name manner).bind fun n => .done (.inr n)

end Sequence

namespace Moment

variable (collection name : String) (m : Moment Demand (Counter ⊕ Int64))

/-- No counter was there and none is, and the call has failed: a call for the next value because the
counter is missing, if the store was not in the way. -/
structure Misses : Prop where
  missing : m.after.counter? collection name = none
  alike : m.before.Alike m.after
  left : ∃ e, m.left = .fail e ∧ (e.Unserved collection ∨
    (∃ manner, m.what = .next manner) ∧ e = Sequence.missing collection name)
  /-- Only a seed may have created the collection. -/
  next : ∀ manner, m.what = .next manner → m.after = m.before

/-- A seed has created its counter and returned it. -/
structure Creates (c : Counter) : Prop where
  what : m.what = .seed c.value c.note
  left : m.left = .done (.inl c)
  stored : m.after.Stores collection c
  added : ∃ d, Counter.decode d = .ok c ∧
    m.before.Becomes m.after collection ((m.before.view collection).documents ++ [d])

/-- The counter `c` was stored and `c'` is; a seed has left everything as it was and returned the
counter, if the store was not in the way. -/
structure Keeps (c c' : Counter) : Prop extends m.before.Raises m.after collection c c' where
  seed : ∀ initial note, m.what = .seed initial note → m.after = m.before ∧
    (m.left = .done (.inl c) ∨ ∃ e, m.left = .fail e ∧ e.Unserved collection)

variable {collection name m}

theorem Misses.isOver (h : m.Misses collection name) : m.left.Over := by
  obtain ⟨e, hfail, -⟩ := h.left
  rw [hfail]
  trivial

theorem Creates.isOver {c : Counter} (h : m.Creates collection c) : m.left.Over := by
  rw [h.left]
  trivial

end Moment

namespace Sequence

/-- The counter `c₀` has become `c` by requests, each of which kept what the one before left. -/
inductive Grows (collection : String) (c₀ : Counter) :
    List (Moment Demand (Counter ⊕ Int64)) → Counter → Prop
  | nil : Grows collection c₀ [] c₀
  | snoc {ms : List (Moment Demand (Counter ⊕ Int64))} {m : Moment Demand (Counter ⊕ Int64)}
    {c c' : Counter} (h : Grows collection c₀ ms c) (hm : m.Keeps collection c c') :
    Grows collection c₀ (ms ++ [m]) c'

variable {collection name : String} {s s' : Store} {c c₀ : Counter}

/-- A counter that grows keeps its name and its note. -/
theorem Grows.fields {ms : List (Moment Demand (Counter ⊕ Int64))}
    (h : Grows collection c₀ ms c) :
    c.id = c₀.id ∧ c.note = c₀.note ∧ c₀.value.toInt ≤ c.value.toInt := by
  induction h with
  | nil => exact ⟨rfl, rfl, Int.le_refl _⟩
  | snoc h hm ih =>
    exact ⟨hm.id.trans ih.1, hm.note.trans ih.2.1, Int.le_trans ih.2.2 hm.value⟩

/-! ## What is left of a call -/

/-- What may be left of a call for the next value. -/
inductive Underway (collection name : String) : Program Int64 → Prop
  | increment : Underway collection name (Allocator.increment collection name)
  | swap (rounds : Nat) : Underway collection name (Allocator.swap collection name rounds)
  | attempt (rounds : Nat) {value next : Int64} (h : Update.addChecked value 1 = some next) :
    Underway collection name (Allocator.attempt collection name rounds value next)

theorem underway_nextValue (hname : checkName name = .ok ()) (manner : Manner) :
    Underway collection name (nextValue collection name manner) := by
  obtain ⟨strategy, rounds⟩ := manner
  rw [nextValue, Allocator.next_of_ok hname]
  cases strategy with
  | atomicIncrement => exact .increment
  | compareAndSwap => exact .swap rounds

/-- What may be left of a call. -/
inductive Proceeds (collection name : String) : Demand → Program (Counter ⊕ Int64) → Prop
  | ended {what : Demand} {left : Program (Counter ⊕ Int64)} (h : left.Over) :
    Proceeds collection name what left
  | seed (initial : Int64) (note : String) : Proceeds collection name (.seed initial note)
      (Demand.program collection name (.seed initial note))
  | next (manner : Manner) {left : Program Int64} (h : Underway collection name left) :
    Proceeds collection name (.next manner) (left.bind fun n => .done (.inr n))

theorem proceeds_program (hname : checkName name = .ok ()) (what : Demand) :
    Proceeds collection name what (what.program collection name) := by
  cases what with
  | seed initial note => exact .seed initial note
  | next manner => exact .next manner (underway_nextValue hname manner)

theorem Demand.program_seed (hname : checkName name = .ok ()) (initial : Int64) (note : String) :
    Demand.program collection name (.seed initial note) =
      .ask (.findAndModify collection (.byId (.string name)) (Counter.seeding initial note)
        ⟨true, true⟩) fun (found : Option Document) =>
          (Program.ofExcept (Counter.ofFound collection name found)).bind fun c =>
            .done (.inl c) := by
  rw [Demand.program, Counter.seed_eq hname]
  rfl

/-! ## Where the counter is stored -/

/-- A round that has read documents is over, or goes on to write. -/
theorem over_or_underway_observed (rounds : Nat) (found : List Document) :
    (Allocator.observed collection name rounds found).Over ∨
      Underway collection name (Allocator.observed collection name rounds found) := by
  cases hfound : Counter.ofFound collection name found.head? with
  | error e =>
    rw [Allocator.observed, hfound]
    exact .inl trivial
  | ok counter =>
    obtain ⟨d, hd, hdecode⟩ := Allocator.ofFound_eq_ok_iff.1 hfound
    rw [Allocator.observed_eq hd hdecode]
    cases hnext : Update.addChecked counter.value 1 with
    | none => exact .inl trivial
    | some next => exact .inr (.attempt rounds hnext)

/-- A request of an allocation raises the counter, or leaves it, and the allocation goes on or is
over. -/
theorem Underway.answer (h : s.Stores collection c) (hs : s.WellFormed) {request : Request}
    {next : request.Answer → Program Int64} (hleft : Underway collection c.id (.ask request next)) :
    (∃ c', s.Raises (s.answer request).2 collection c c') ∧
      ((Program.resume next (s.answer request).1).Over ∨
        Underway collection c.id (Program.resume next (s.answer request).1)) := by
  generalize hask : Program.ask request next = left at hleft
  cases hleft with
  | increment =>
    rw [Allocator.increment_eq] at hask
    cases hask
    refine ⟨h.increment hs rfl, .inl ?_⟩
    cases (s.answer _).1 with
    | error e => trivial
    | ok found => exact Program.over_bind_done (Program.over_ofExcept _) _
  | swap rounds =>
    cases rounds with
    | zero => cases hask
    | succ rounds =>
      rw [Allocator.swap_succ_eq] at hask
      cases hask
      refine ⟨⟨c, h.raises_of_alike fun other => ?_⟩, ?_⟩
      · rw [Store.answer, Store.snd_find]
      · cases (s.answer _).1 with
        | error e => exact .inl trivial
        | ok found => exact over_or_underway_observed rounds found
  | attempt rounds hnext =>
    rw [Allocator.attempt] at hask
    cases hask
    refine ⟨h.swap hs hnext rfl, ?_⟩
    cases (s.answer _).1 with
    | error e => exact .inl trivial
    | ok result =>
      dsimp only [Program.resume]
      split
      · exact .inl trivial
      · exact .inr (.swap rounds)

/-- Where the counter is stored, a request keeps it, whatever call it belongs to. -/
theorem Proceeds.keeps (hname : checkName c.id = .ok ()) (h : s.Stores collection c)
    (hs : s.Reachable) {what : Demand} {request : Request}
    {next : request.Answer → Program (Counter ⊕ Int64)}
    (hleft : Proceeds collection c.id what (.ask request next)) (i : Nat) :
    (∃ c', Moment.Keeps collection ⟨i, what, s, (s.answer request).2,
        Program.resume next (s.answer request).1⟩ c c') ∧
      Proceeds collection c.id what (Program.resume next (s.answer request).1) := by
  generalize hask : Program.ask request next = left at hleft
  cases hleft with
  | ended hover => rw [← hask] at hover; exact hover.elim
  | seed initial note =>
    rw [Demand.program_seed hname] at hask
    cases hask
    cases hanswer : s.answer (.findAndModify collection (.byId (.string c.id))
        (Counter.seeding initial note) ⟨true, true⟩) with
    | mk result s' =>
      obtain ⟨rfl, ⟨d, rfl, hdecode⟩ | ⟨e, rfl, hcause⟩⟩ := h.seed hs hanswer
      · have hfound : Counter.ofFound collection c.id (some d) = .ok c :=
          Allocator.ofFound_eq_ok hdecode
        dsimp only [Program.resume]
        rw [hfound]
        exact ⟨⟨c, h.raises_of_alike (.refl _), fun _ _ _ => ⟨rfl, .inl rfl⟩⟩, .ended trivial⟩
      · exact ⟨⟨c, h.raises_of_alike (.refl _), fun _ _ _ => ⟨rfl, .inr ⟨e, rfl, hcause⟩⟩⟩,
          .ended trivial⟩
  | @next manner p hp =>
    cases p with
    | ask request next =>
      cases hask
      obtain ⟨⟨c', hraises⟩, hgoes⟩ := Underway.answer h hs.wellFormed hp
      rw [Program.resume_bind]
      refine ⟨⟨c', hraises, fun _ _ hseed => nomatch hseed⟩, ?_⟩
      obtain hover | hgoes := hgoes
      · exact .ended (Program.over_bind_done hover _)
      · exact .next manner hgoes
    | _ => cases hask

/-! ## Where there is no counter -/

/-- What is left of an allocation that found nothing. -/
theorem misses_of_next (hnone : s.counter? collection name = none) {manner : Manner}
    {left : Program (Counter ⊕ Int64)} (hleft : ∃ e, left = .fail e ∧
      (e.Unserved collection ∨ e = missing collection name)) (i : Nat) :
    Moment.Misses collection name ⟨i, .next manner, s, s, left⟩ := by
  obtain ⟨e, hfail, hcause⟩ := hleft
  exact ⟨hnone, .refl s, ⟨e, hfail, hcause.imp_right fun h => ⟨⟨manner, rfl⟩, h⟩⟩, fun _ _ => rfl⟩

/-- A seed that finds no counter creates it, or the store is in the way. -/
theorem misses_or_creates_of_seed (hname : checkName name = .ok ())
    (hnone : s.counter? collection name = none) (hs : s.Reachable) {initial : Int64} {note : String}
    {request : Request} {next : request.Answer → Program (Counter ⊕ Int64)}
    (hask : Demand.program collection name (.seed initial note) = .ask request next) (i : Nat) :
    Moment.Misses collection name ⟨i, .seed initial note, s, (s.answer request).2,
        Program.resume next (s.answer request).1⟩ ∨
      Moment.Creates collection ⟨i, .seed initial note, s, (s.answer request).2,
        Program.resume next (s.answer request).1⟩ ⟨name, initial, note⟩ := by
  rw [Demand.program_seed hname] at hask
  cases hask
  cases hanswer : s.answer (.findAndModify collection (.byId (.string name))
      (Counter.seeding initial note) ⟨true, true⟩) with
  | mk result s' =>
    obtain ⟨halike, e, rfl, hcause⟩ | ⟨d, rfl, hdecode, hstored, hbecomes⟩ :=
      Store.seed_absent hs.wellFormed hnone hanswer
    · exact .inl ⟨(Store.counter?_of_alike halike collection name).trans hnone, halike,
        ⟨e, rfl, .inl hcause⟩, fun _ hnext => nomatch hnext⟩
    · have hfound : Counter.ofFound collection name (some d) = .ok ⟨name, initial, note⟩ :=
        Allocator.ofFound_eq_ok hdecode
      dsimp only [Program.resume]
      rw [hfound]
      exact .inr ⟨rfl, rfl, hstored, d, hdecode, hbecomes⟩

/-- An allocation that finds no counter ends there, by either strategy. -/
theorem misses_of_nextValue (hname : checkName name = .ok ())
    (hnone : s.counter? collection name = none) (hs : s.Reachable) {manner : Manner}
    {request : Request} {next : request.Answer → Program (Counter ⊕ Int64)}
    (hask : Demand.program collection name (.next manner) = .ask request next) (i : Nat) :
    Moment.Misses collection name ⟨i, .next manner, s, (s.answer request).2,
      Program.resume next (s.answer request).1⟩ := by
  obtain ⟨strategy, rounds⟩ := manner
  rw [Demand.program, nextValue, Allocator.next_of_ok hname] at hask
  cases strategy with
  | atomicIncrement =>
    dsimp only at hask
    rw [Allocator.increment_eq] at hask
    cases hask
    cases hanswer : s.answer (.findAndModify collection (.byId (.string name))
        (Update.empty.andInc valueField 1) ⟨true, false⟩) with
    | mk result s' =>
      obtain ⟨rfl, rfl | ⟨e, rfl, hcause⟩⟩ := Store.increment_absent hs hnone hanswer
      · exact misses_of_next hnone ⟨_, rfl, .inr rfl⟩ i
      · exact misses_of_next hnone ⟨e, rfl, .inl hcause⟩ i
  | compareAndSwap =>
    cases rounds with
    | zero => cases hask
    | succ rounds =>
      dsimp only at hask
      rw [Allocator.swap_succ_eq] at hask
      cases hask
      cases hanswer : s.answer (.find collection (.byId (.string name))) with
      | mk result s' =>
        obtain h | ⟨e, h, hcause⟩ := Store.find_absent hnone
        · cases hanswer.symm.trans h
          exact misses_of_next hnone ⟨_, rfl, .inr rfl⟩ i
        · cases hanswer.symm.trans h
          exact misses_of_next hnone ⟨e, rfl, .inl hcause⟩ i

/-- Where there is no counter, the first request of a call fails or creates it. -/
theorem misses_or_creates (hname : checkName name = .ok ())
    (hnone : s.counter? collection name = none) (hs : s.Reachable) {what : Demand}
    {request : Request} {next : request.Answer → Program (Counter ⊕ Int64)}
    (hask : what.program collection name = .ask request next) (i : Nat) :
    Moment.Misses collection name ⟨i, what, s, (s.answer request).2,
        Program.resume next (s.answer request).1⟩ ∨
      ∃ initial note, Moment.Creates collection ⟨i, what, s, (s.answer request).2,
        Program.resume next (s.answer request).1⟩ ⟨name, initial, note⟩ := by
  cases what with
  | seed initial note =>
    exact (misses_or_creates_of_seed hname hnone hs hask i).imp_right fun h => ⟨initial, note, h⟩
  | next manner => exact .inl (misses_of_nextValue hname hnone hs hask i)

/-! ## Runs -/

variable {w : World Demand (Counter ⊕ Int64)}

/-- No seed has got through. -/
structure Unseeded (collection name : String) (w : World Demand (Counter ⊕ Int64)) : Prop where
  missing : w.store.counter? collection name = none
  history : ∀ m ∈ w.history, m.Misses collection name
  calls : ∀ call ∈ w.calls, call.left = call.what.program collection name ∨ call.left.Over

/-- A seed has created the counter `c₀`, which is `c` now. -/
structure Seeded (collection : String) (c₀ c : Counter) (w : World Demand (Counter ⊕ Int64))
    (earlier : List (Moment Demand (Counter ⊕ Int64))) (first : Moment Demand (Counter ⊕ Int64))
    (later : List (Moment Demand (Counter ⊕ Int64))) : Prop where
  stored : w.store.Stores collection c
  history : w.history = earlier ++ first :: later
  misses : ∀ m ∈ earlier, m.Misses collection c₀.id
  creates : first.Creates collection c₀
  grows : Grows collection c₀ later c
  calls : ∀ call ∈ w.calls, Proceeds collection c₀.id call.what call.left

namespace Unseeded

variable (h : Unseeded collection name w)
include h

theorem start (what : Demand) :
    Unseeded collection name (w.start what (what.program collection name)) := by
  refine ⟨h.missing, h.history, fun call hcall => ?_⟩
  rcases List.mem_append.1 hcall with hcall | hcall
  · exact h.calls call hcall
  · rw [List.mem_singleton.1 hcall]
    exact .inl rfl

theorem rest {store : Store} (halike : w.store.Alike store) :
    Unseeded collection name { w with store } :=
  ⟨(Store.counter?_of_alike halike collection name).trans h.missing, h.history, h.calls⟩

/-- A request is missed, or it is that of the first seed to get through. -/
theorem answer (hname : checkName name = .ok ()) (hw : w.store.Reachable) {i : Nat} {what : Demand}
    {request : Request} {next : request.Answer → Program (Counter ⊕ Int64)}
    (hcall : w.calls[i]? = some ⟨what, .ask request next⟩) :
    Unseeded collection name (w.answer i what request next) ∨
      ∃ initial note first, Seeded collection ⟨name, initial, note⟩ ⟨name, initial, note⟩
        (w.answer i what request next) w.history first [] := by
  have hask := (h.calls _ (List.mem_of_getElem? hcall)).resolve_right fun hover => hover
  obtain hmisses | ⟨initial, note, hcreates⟩ :=
    misses_or_creates hname h.missing hw hask.symm i
  · refine .inl ⟨hmisses.missing, fun m hm => ?_, fun call hm => ?_⟩
    · rw [World.history_answer] at hm
      rcases List.mem_append.1 hm with hm | hm
      · exact h.history m hm
      · rw [List.mem_singleton.1 hm]
        exact hmisses
    · rcases List.mem_or_eq_of_mem_set hm with hm | rfl
      · exact h.calls call hm
      · exact .inr hmisses.isOver
  · refine .inr ⟨initial, note, _, hcreates.stored, World.history_answer w i what request next,
      h.history, hcreates, .nil, fun call hm => ?_⟩
    rcases List.mem_or_eq_of_mem_set hm with hm | rfl
    · obtain hbegun | hover := h.calls call hm
      · rw [hbegun]
        exact proceeds_program hname call.what
      · exact .ended hover
    · exact .ended hcreates.isOver

end Unseeded

namespace Seeded

variable {earlier later : List (Moment Demand (Counter ⊕ Int64))}
  {first : Moment Demand (Counter ⊕ Int64)} (h : Seeded collection c₀ c w earlier first later)
include h

theorem start (hname : checkName c₀.id = .ok ()) (what : Demand) : Seeded collection c₀ c
    (w.start what (what.program collection c₀.id)) earlier first later := by
  refine ⟨h.stored, h.history, h.misses, h.creates, h.grows, fun call hcall => ?_⟩
  rcases List.mem_append.1 hcall with hcall | hcall
  · exact h.calls call hcall
  · rw [List.mem_singleton.1 hcall]
    exact proceeds_program hname what

theorem rest {store : Store} (halike : w.store.Alike store) :
    Seeded collection c₀ c { w with store } earlier first later :=
  ⟨h.stored.of_alike halike, h.history, h.misses, h.creates, h.grows, h.calls⟩

/-- Every request keeps the counter. -/
theorem answer (hname : checkName c₀.id = .ok ()) (hw : w.store.Reachable) {i : Nat} {what : Demand}
    {request : Request} {next : request.Answer → Program (Counter ⊕ Int64)}
    (hcall : w.calls[i]? = some ⟨what, .ask request next⟩) :
    ∃ c' m, Seeded collection c₀ c' (w.answer i what request next) earlier first
      (later ++ [m]) := by
  have hid := h.grows.fields.1
  have hleft := h.calls _ (List.mem_of_getElem? hcall)
  rw [← hid] at hname hleft
  obtain ⟨⟨c', hkeeps⟩, hproceeds⟩ := hleft.keeps hname h.stored hw i
  refine ⟨c', _, hkeeps.after, ?_, h.misses, h.creates, h.grows.snoc hkeeps, fun call hm => ?_⟩
  · rw [World.history_answer, h.history, List.append_assoc, List.cons_append]
  · rcases List.mem_or_eq_of_mem_set hm with hm | rfl
    · exact h.calls call hm
    · exact hid ▸ hproceeds

end Seeded

end Sequence

end StepLedger

import StepLedger.Proofs.World

/-!
# Programs among others

Between two requests of a program others may ask theirs. `Program.Fulfils rely Q F` says of a program
that, as long as others change the store only as `rely` allows, it returns values in `Q` and fails on
its own account with errors in `F`; both are about the store as the last request left it. Such
programs compose (`fulfils_bind`), and what is left of a call goes on to fulfil what the call was
started for (`Fulfils.resume`).
-/

namespace StepLedger.Program

variable {α β : Type} {rely : Store → Store → Prop} {Q : Store → α → Prop}
  {F : Store → StoreError → Prop} {s : Store}

/-- What is returned is in `Q` and errors other than those of requests are in `F`, where `s` is the
store after the last request. -/
def Fulfils (rely : Store → Store → Prop) (Q : Store → α → Prop) (F : Store → StoreError → Prop) :
    Store → Program α → Prop
  | s, .done a => Q s a
  | s, .fail e => F s e
  | _, .stalled => True
  | s, .ask request next => ∀ s' answer s'', rely s s' → s'.answer request = (.ok answer, s'') →
      Fulfils rely Q F s'' (next answer)

theorem fulfils_bind {R : Store → β → Prop} {program : Program α} {f : α → Program β}
    (h : Fulfils rely Q F s program) (hf : ∀ s a, Q s a → Fulfils rely R F s (f a)) :
    Fulfils rely R F s (program.bind f) := by
  induction program generalizing s with
  | done a => exact hf s a h
  | fail e => exact h
  | stalled => trivial
  | ask request next ih =>
    exact fun s' answer s'' hrely hanswer => ih answer (h s' answer s'' hrely hanswer)

theorem fulfils_mono {R : Store → α → Prop} {G : Store → StoreError → Prop} {program : Program α}
    (h : Fulfils rely Q F s program) (hQ : ∀ s a, Q s a → R s a) (hF : ∀ s e, F s e → G s e) :
    Fulfils rely R G s program := by
  induction program generalizing s with
  | done a => exact hQ s a h
  | fail e => exact hF s e h
  | stalled => trivial
  | ask request next ih =>
    exact fun s' answer s'' hrely hanswer => ih answer (h s' answer s'' hrely hanswer)

theorem fulfils_ofExcept {result : Except StoreError α} (hok : ∀ a, result = .ok a → Q s a)
    (herror : ∀ e, result = .error e → F s e) : Fulfils rely Q F s (ofExcept result) := by
  cases result with
  | error e => exact herror e rfl
  | ok a => exact hok a rfl

theorem fulfils_request {request : Request} {Q : Store → request.Answer → Prop}
    (h : ∀ s' answer s'', rely s s' → s'.answer request = (.ok answer, s'') → Q s'' answer) :
    Fulfils rely Q F s (Program.request request) := h

theorem fulfils_findOne {collection : String} {f : Filter} {Q : Store → Option Document → Prop}
    (h : ∀ s', rely s s' → Q s' ((s'.view collection).find f).head?) :
    Fulfils rely Q F s (findOne collection f) := by
  intro s' found s'' hrely hanswer
  rw [Store.answer] at hanswer
  obtain ⟨e, -, hfind⟩ | hfind := s'.find_eq collection f
  · rw [hfind] at hanswer
    cases hanswer
  · rw [hfind] at hanswer
    cases hanswer
    exact h s' hrely

/-- What is left of a program when its request has been answered or refused. -/
theorem Fulfils.resume {request : Request} {next : request.Answer → Program α}
    (h : Fulfils rely Q F s (.ask request next)) {s' : Store} (hrely : rely s s')
    (hrefused : ∀ e, (s'.answer request).1 = .error e → F (s'.answer request).2 e) :
    Fulfils rely Q F (s'.answer request).2 (resume next (s'.answer request).1) := by
  cases hanswer : s'.answer request with
  | mk result s'' =>
    rw [hanswer] at hrefused
    cases result with
    | ok answer => exact h s' answer s'' hrely hanswer
    | error e => exact hrefused e rfl

/-- A program that is run alone fails on its own account or with the error of a request. -/
theorem Fulfils.failed {P : Request → Prop} {R : α → Prop} {program : Program α} {e : StoreError}
    {s' : Store} (h : Fulfils rely Q F s program) (hrely : ∀ s, rely s s) (hasks : program.Asks P R)
    (hs : s.WellFormed) (hrun : program.run Store.answer s = (.failed e, s')) :
    F s' e ∨ ∃ (request : Request) (before : Store), P request ∧ before.WellFormed ∧
      before.answer request = (.error e, s') := by
  induction program generalizing s with
  | done a => cases hrun
  | fail e' =>
    cases hrun
    exact .inl h
  | stalled => cases hrun
  | ask request next ih =>
    rw [Program.run] at hrun
    cases hanswer : s.answer request with
    | mk result after =>
      rw [hanswer] at hrun
      cases result with
      | error e' =>
        cases hrun
        exact .inr ⟨request, s, hasks.1, hs, hanswer⟩
      | ok answer =>
        exact ih answer (h s answer after (hrely s) hanswer) (hasks.2 answer)
          (hs.of_answer request hanswer) hrun

end StepLedger.Program

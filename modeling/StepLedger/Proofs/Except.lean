/-!
# Results that may be errors

Taking chains of `Except` apart: what succeeds did so in every part, and what fails did so in one,
after those before it had succeeded.
-/

namespace StepLedger.Except

variable {ε α β : Type}

@[simp] theorem ok_bind (a : α) (f : α → Except ε β) : (.ok a >>= f) = f a := rfl

@[simp] theorem error_bind (e : ε) (f : α → Except ε β) : (.error e >>= f) = .error e := rfl

theorem eq_error_or_ok (x : Except ε α) : (∃ e, x = .error e) ∨ ∃ a, x = .ok a := by
  cases x with
  | error e => exact .inl ⟨e, rfl⟩
  | ok a => exact .inr ⟨a, rfl⟩

theorem bind_eq_ok {x : Except ε α} {f : α → Except ε β} {b : β} :
    (x >>= f) = .ok b ↔ ∃ a, x = .ok a ∧ f a = .ok b := by
  cases x with
  | error e => simp
  | ok a => simp

theorem bind_eq_error {x : Except ε α} {f : α → Except ε β} {e : ε} :
    (x >>= f) = .error e ↔ x = .error e ∨ ∃ a, x = .ok a ∧ f a = .error e := by
  cases x with
  | error e' => simp
  | ok a => simp

theorem map_eq_ok {x : Except ε α} {f : α → β} {b : β} :
    x.map f = .ok b ↔ ∃ a, x = .ok a ∧ f a = b := by
  cases x with
  | error e => simp [Except.map]
  | ok a => simp [Except.map]

theorem map_eq_error {x : Except ε α} {f : α → β} {e : ε} :
    x.map f = .error e ↔ x = .error e := by
  cases x with
  | error e' => simp [Except.map]
  | ok a => simp [Except.map]

/-- All items are mapped if each of them is. -/
theorem mapM_eq_ok {f : α → Except ε β} {items : List α} {results : List β} :
    items.mapM f = .ok results ↔ items.map f = results.map .ok := by
  induction items generalizing results with
  | nil =>
    rw [List.mapM_nil, List.map_nil, List.nil_eq, List.map_eq_nil_iff, eq_comm]
    exact Except.ok.injEq results [] ▸ .rfl
  | cons a items ih =>
    rw [List.mapM_cons, List.map_cons, bind_eq_ok]
    constructor
    · rintro ⟨b, hb, h⟩
      obtain ⟨bs, hbs, h⟩ := bind_eq_ok.1 h
      cases h
      rw [hb, ih.1 hbs, List.map_cons]
    · intro h
      obtain ⟨b, bs, rfl, hb, hbs⟩ := List.map_eq_cons_iff.1 h.symm
      exact ⟨b, hb.symm, bind_eq_ok.2 ⟨bs, ih.2 hbs.symm, rfl⟩⟩

/-- What holds at the beginning and is kept by each step that succeeds holds at the end. -/
theorem foldlM_induction {motive : β → Prop} {f : β → α → Except ε β} {items : List α} {b r : β}
    (h : items.foldlM f b = .ok r) (init : motive b)
    (step : ∀ a ∈ items, ∀ b b', motive b → f b a = .ok b' → motive b') : motive r := by
  induction items generalizing b with
  | nil => cases h; exact init
  | cons a items ih =>
    rw [List.foldlM_cons] at h
    obtain ⟨b', hfirst, hrest⟩ := bind_eq_ok.1 h
    exact ih hrest (step a List.mem_cons_self b b' init hfirst) fun other hother =>
      step other (List.mem_cons_of_mem _ hother)

/-- A loop that fails has gone through the items before the one that it fails at. -/
theorem foldlM_eq_error {f : β → α → Except ε β} {items : List α} {b : β} {e : ε}
    (h : items.foldlM f b = .error e) : ∃ before a rest b', items = before ++ a :: rest ∧
      before.foldlM f b = .ok b' ∧ f b' a = .error e := by
  induction items generalizing b with
  | nil => cases h
  | cons a items ih =>
    rw [List.foldlM_cons] at h
    obtain hfails | ⟨next, hfirst, hrest⟩ := bind_eq_error.1 h
    · exact ⟨[], a, items, b, rfl, rfl, hfails⟩
    · obtain ⟨before, a', rest, b', rfl, hbefore, hfails⟩ := ih hrest
      refine ⟨a :: before, a', rest, b', rfl, ?_, hfails⟩
      rw [List.foldlM_cons, hfirst]
      exact hbefore

theorem toOption_eq_some {x : Except ε α} {a : α} : x.toOption = some a ↔ x = .ok a := by
  cases x <;> simp [Except.toOption]

@[simp] theorem mapError_ok {ε' : Type} (f : ε → ε') (a : α) :
    (.ok a : Except ε α).mapError f = .ok a := rfl

@[simp] theorem mapError_error {ε' : Type} (f : ε → ε') (e : ε) :
    (.error e : Except ε α).mapError f = .error (f e) := rfl

theorem mapError_eq_ok {ε' : Type} {x : Except ε α} {f : ε → ε'} {a : α} :
    x.mapError f = .ok a ↔ x = .ok a := by
  cases x <;> simp

theorem mapError_eq_error {ε' : Type} {x : Except ε α} {f : ε → ε'} {e : ε'} :
    x.mapError f = .error e ↔ ∃ cause, x = .error cause ∧ f cause = e := by
  cases x <;> simp

end StepLedger.Except

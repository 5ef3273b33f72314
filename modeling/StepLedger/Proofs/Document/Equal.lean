import StepLedger.Proofs.Document.Apply
import StepLedger.Proofs.Document.Selects

/-!
# Equal documents

Documents that are equal as JSON values may differ in the signs of zeros. No filter tells them apart
(`Filter.selects_congr`), and what an update makes of them is equal again, or the update fails on
both (`Update.apply_congr`). The errors are then of one kind, but one of them may show `0.0` where
the other shows `-0.0` (`StoreError.Akin`).
-/

namespace StepLedger

/-! ## Results -/

/-- Two errors that differ at most in how a value that is no integer is shown. -/
inductive StoreError.Akin : StoreError → StoreError → Prop
  | refl (e : StoreError) : Akin e e
  | notInteger (field shown shown' : String) :
    Akin (.invalidArgument (.notInteger field shown)) (.invalidArgument (.notInteger field shown'))

theorem StoreError.Akin.kind_eq {e e' : StoreError} (h : e.Akin e') : e'.kind = e.kind := by
  cases h <;> rfl

/-- Two results are values in a relation, or errors that are akin. -/
inductive Concur {α β : Type} (r : α → β → Prop) : Except StoreError α → Except StoreError β → Prop
  | ok {a : α} {b : β} (h : r a b) : Concur r (.ok a) (.ok b)
  | error {e e' : StoreError} (h : e.Akin e') : Concur r (.error e) (.error e')

namespace Concur

variable {α β γ δ : Type} {r : α → β → Prop} {q : γ → δ → Prop}

theorem refl {r : α → α → Prop} (h : ∀ a, r a a) (x : Except StoreError α) : Concur r x x := by
  cases x with
  | ok a => exact .ok (h a)
  | error e => exact .error (.refl e)

theorem bind {x : Except StoreError α} {y : Except StoreError β} {f : α → Except StoreError γ}
    {g : β → Except StoreError δ} (h : Concur r x y) (hf : ∀ a b, r a b → Concur q (f a) (g b)) :
    Concur q (x >>= f) (y >>= g) := by
  cases h with
  | ok h => exact hf _ _ h
  | error h => exact .error h

/-- Loops over the same items from related values concur if every step does. -/
theorem foldlM {ι : Type} {f : α → ι → Except StoreError α} {g : β → ι → Except StoreError β}
    (hstep : ∀ a b i, r a b → Concur r (f a i) (g b i)) (items : List ι) {a : α} {b : β}
    (h : r a b) : Concur r (items.foldlM f a) (items.foldlM g b) := by
  induction items generalizing a b with
  | nil => exact .ok h
  | cons i items ih =>
    rw [List.foldlM_cons, List.foldlM_cons]
    exact (hstep a b i h).bind fun _ _ => ih

end Concur

/-! ## Documents -/

namespace Document

variable {d e : Document}

/-- The documents are equal as JSON values. -/
def Equal (d e : Document) : Prop := d.same e = true

theorem Equal.refl (d : Document) : d.Equal d := d.same_refl

theorem Equal.symm (h : d.Equal e) : e.Equal d := Json.Value.same_symm h

theorem Equal.trans {d' : Document} (h : d.Equal e) (h' : e.Equal d') : d.Equal d' :=
  Json.Value.same_trans h h'

theorem Equal.set (h : d.Equal e) (field : String) (value : Json) :
    (d.set field value).Equal (e.set field value) :=
  Json.Value.sameFields_insert (Json.Value.same_refl value.value) h

theorem Equal.overlay (h : d.Equal e) (other : Document) :
    (d.overlay other).Equal (e.overlay other) := by
  rw [Document.overlay, Document.overlay]
  generalize other.toList = fields
  induction fields generalizing d e with
  | nil => exact h
  | cons field fields ih => exact ih (h.set field.1 field.2)

/-- Documents are equal if they have the same fields, with equal values. -/
theorem equal_iff : d.Equal e ↔
    ∀ name, Option.Rel (fun value other => value.same other = true) (d.get? name) (e.get? name) := by
  constructor
  · intro h name
    obtain ⟨hd, he⟩ | ⟨value, other, hd, he, hsame⟩ := get?_of_same h name
    · rw [hd, he]
      exact .none
    · rw [hd, he]
      exact .some hsame
  · intro h
    rw [Equal, Document.same, Json.Value.same]
    exact Json.Value.sameFields_of_forall₂ (d.ordered.1.forall₂ e.ordered.1 h)

/-- A document is compared with a third in the same way as one that equals it. -/
theorem Equal.same_congr {d' e' : Document} (h : d.Equal e) (h' : d'.Equal e') :
    d'.same d = e'.same e := by
  refine Bool.eq_iff_iff.2 ⟨fun hs => ?_, fun hs => ?_⟩
  · exact h'.symm.trans (Equal.trans hs h)
  · exact h'.trans (Equal.trans hs h.symm)

end Document

/-! ## Filters -/

namespace Filter

variable {d e : Document}

theorem holds_congr (h : d.Equal e) (clause : String × Json) : holds clause d = holds clause e := by
  rw [holds, holds]
  obtain ⟨hd, he⟩ | ⟨value, other, hd, he, hsame⟩ := Document.get?_of_same h clause.1
  · rw [hd, he]
  · rw [hd, he]
    refine Bool.eq_iff_iff.2 ⟨fun hv => ?_, fun hv => Json.Value.same_trans hsame hv⟩
    exact Json.Value.same_trans (Json.Value.same_symm hsame) hv

/-- A filter selects both of two equal documents or neither. -/
theorem selects_congr (f : Filter) (h : d.Equal e) : f.selects d = f.selects e := by
  rw [selects, selects]
  exact congrArg f.clauses.all (funext fun clause => holds_congr h clause)

end Filter

/-! ## Updates -/

namespace Update

variable {d e : Document}

/-- Equal documents hold the same integer in a field, or none. -/
theorem current_congr (h : d.Equal e) (field : String) :
    Concur (· = ·) (current d field) (current e field) := by
  rw [current, current]
  obtain ⟨hd, he⟩ | ⟨value, other, hd, he, hsame⟩ := Document.get?_of_same h field
  · rw [hd, he]
    exact .ok rfl
  · rw [hd, he]
    cases value with
    | number m =>
      cases other with
      | number n =>
        cases m with
        | int =>
          rw [Json.Value.same_int_iff.1 (Json.Value.same_symm hsame)]
          exact .refl (fun _ => rfl) _
        | float x =>
          cases n with
          | int => cases hsame
          | float y => exact .error (.notInteger ..)
      | _ => cases hsame
    | null =>
      cases other with
      | null => exact .ok rfl
      | _ => cases hsame
    | bool | string | array | object =>
      cases other <;> first | cases hsame | exact .error (.notInteger ..)

theorem increment_congr (h : d.Equal e) (field : String) (amount : Int64) :
    Concur Document.Equal (increment d field amount) (increment e field amount) := by
  refine (current_congr h field).bind fun n _ heq => ?_
  subst heq
  cases addChecked n amount with
  | none => exact .error (.refl _)
  | some sum => exact .ok (h.set field _)

/-- What an update makes of equal documents is equal, or it fails on both. -/
theorem apply_congr (u : Update) (h : d.Equal e) :
    Concur Document.Equal (u.apply d) (u.apply e) := by
  rw [apply_eq, apply_eq]
  split
  · exact .error (.refl _)
  · exact .foldlM (fun _ _ field h => increment_congr h field.1 field.2) u.inc (h.overlay u.set)

end Update

end StepLedger

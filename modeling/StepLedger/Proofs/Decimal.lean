import Mathlib.Algebra.Group.Nat.Defs
import StepLedger.Decimal

/-!
# Digits

What is written in decimal consists of digits, at least one and no zero in front, and reads back as
the number; so does a number with zeros in front.
-/

namespace StepLedger.Decimal

theorem isDigit_ofNat {n : Nat} {c : Char} (h : c ∈ ofNat n) : c.isDigit = true :=
  Nat.isDigit_of_mem_toDigits (by decide) (by decide) h

theorem ofNat_ne_nil (n : Nat) : ofNat n ≠ [] := Nat.toDigits_ne_nil

theorem length_ofNat_le {n k : Nat} (hk : 0 < k) (h : n < 10 ^ k) : (ofNat n).length ≤ k :=
  (Nat.length_toDigits_le_iff (by decide) hk).2 h

/-! ## Zeros -/

theorem isDigit_of_mem_replicate {k : Nat} {c : Char} (h : c ∈ List.replicate k '0') :
    c.isDigit = true := by
  rw [List.eq_of_mem_replicate h]
  rfl

/-- Zeros in front do not count. -/
theorem toNat_replicate_zero_append (k : Nat) (digits : List Char) :
    toNat (List.replicate k '0' ++ digits) = toNat digits := by
  rw [toNat, Nat.ofDigitChars_append, Nat.ofDigitChars_replicate_zero, Nat.mul_zero, toNat]

/-- Zeros at the end are a power of ten. -/
theorem toNat_append_replicate_zero (digits : List Char) (k : Nat) :
    toNat (digits ++ List.replicate k '0') = toNat digits * 10 ^ k := by
  rw [toNat, Nat.ofDigitChars_append, Nat.ofDigitChars_replicate_zero, toNat, Nat.mul_comm]

theorem isDigit_padded {width n : Nat} {c : Char} (h : c ∈ padded width n) : c.isDigit = true := by
  rcases List.mem_append.1 h with h | h
  · exact isDigit_of_mem_replicate h
  · exact isDigit_ofNat h

theorem toNat_padded (width n : Nat) : toNat (padded width n) = n := by
  rw [padded, toNat_replicate_zero_append]
  exact toNat_ofNat n

theorem length_padded {width n : Nat} (hwidth : 0 < width) (h : n < 10 ^ width) :
    (padded width n).length = width := by
  have := length_ofNat_le hwidth h
  simp only [padded, List.length_append, List.length_replicate]
  omega

/-! ## Telling numbers apart -/

theorem ofNat_inj {m n : Nat} : ofNat m = ofNat n ↔ m = n := by
  refine ⟨fun h => ?_, congrArg ofNat⟩
  rw [← toNat_ofNat m, h, toNat_ofNat]

/-- There is no zero in front. -/
theorem head?_ofNat {n : Nat} (h : n ≠ 0) : (ofNat n).head? ≠ some '0' := by
  induction n using Nat.strongRecOn with
  | ind n ih =>
    rw [ofNat]
    by_cases hlt : n < 10
    · rw [Nat.toDigits_of_lt_base hlt, List.head?_cons, ne_eq, Option.some.injEq,
        Nat.digitChar_eq_zero]
      exact h
    · rw [Nat.toDigits_of_base_le (by decide) (Nat.le_of_not_lt hlt), List.head?_append,
        Option.or_of_isSome (List.isSome_head?.2 Nat.toDigits_ne_nil)]
      exact ih (n / 10) (by omega) (by omega)

/-- A sign is no digit. -/
theorem cons_minus_ne_ofNat (digits : List Char) (n : Nat) : '-' :: digits ≠ ofNat n := by
  intro h
  have hdigit : '-' ∈ ofNat n := h ▸ List.mem_cons_self
  exact absurd (isDigit_ofNat hdigit) (by decide)

/-- Numbers with one text are one number. -/
theorem ofInt_inj {m n : Int} (h : ofInt m = ofInt n) : m = n := by
  unfold ofInt at h
  split at h
  · split at h
    · have := ofNat_inj.1 (List.cons.inj h).2
      omega
    · exact absurd h (cons_minus_ne_ofNat _ _)
  · split at h
    · exact absurd h.symm (cons_minus_ne_ofNat _ _)
    · have := ofNat_inj.1 h
      omega

theorem padded_ne_nil (width n : Nat) : padded width n ≠ [] := by
  simp [padded, ofNat_ne_nil]

end StepLedger.Decimal

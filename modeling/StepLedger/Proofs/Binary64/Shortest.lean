import Mathlib.Algebra.Order.Field.Power
import Mathlib.Algebra.Order.Field.Rat
import Mathlib.Tactic.ByContra
import Mathlib.Tactic.Linarith
import Mathlib.Tactic.NormNum
import Mathlib.Tactic.Positivity
import Mathlib.Tactic.Ring
import StepLedger.Binary64.Shortest

/-!
# One shortest decimal for one magnitude

What rounds to a number lies in the interval between the midpoints around it (`roundsTo_iff`). The
intervals of two magnitudes do not meet: where they touch, the midpoint belongs to the one with the
even mantissa (`Near.unique`). An interval is wider than the grid of seventeen digits, so one of the
two neighbours of a number on that grid rounds to it (`exists_onGrid`), and the decimal that is found
rounds to it in any case. No two magnitudes have one shortest decimal (`shortest_inj`).
-/

namespace StepLedger

namespace Decimal.Scientific

/-- The number that a decimal stands for. -/
def value (d : Scientific) : ℚ := d.digits * 10 ^ d.exponent

end Decimal.Scientific

namespace Binary64

variable {x y : Binary64} {digits : Nat} {exponent : Int} {q : ℚ}

theorem unitsPerOne_pos : 0 < unitsPerOne := by
  unfold unitsPerOne
  generalize 1074 = scale
  exact Nat.two_pow_pos scale

/-! ## Intervals -/

/-- The size of one step of the mantissa, in units. -/
def step (x : Binary64) : ℚ := 2 ^ x.scale

theorem step_pos (x : Binary64) : 0 < x.step := by rw [step]; positivity

/-- The distance to the midpoint below, in steps: a quarter below a power of two, where the steps
get smaller, and half of a step elsewhere. -/
def reach (x : Binary64) : ℚ := if x.mantissa = 4503599627370496 ∧ 0 < x.scale then 1 / 4 else 1 / 2

/-- The midpoint below, in units. -/
def lower (x : Binary64) : ℚ := (x.mantissa - x.reach) * x.step

/-- The midpoint above, in units. -/
def upper (x : Binary64) : ℚ := (x.mantissa + 1 / 2) * x.step

/-- The number of `q` units rounds to the magnitude of `x`. -/
def Near (x : Binary64) (q : ℚ) : Prop :=
  (x.lower < q ∨ x.mantissa % 2 = 0 ∧ x.lower = q) ∧
    (q < x.upper ∨ x.mantissa % 2 = 0 ∧ q = x.upper)

theorem one_le_mantissa (h : x.isZero = false) : 1 ≤ x.mantissa := by
  simp only [isZero, decide_eq_false_iff_not] at h
  omega

/-- A power of ten, cleared of what stands below the line. -/
theorem zpow_mul_pow_toNat_neg (k : Int) : (10 : ℚ) ^ k * 10 ^ (-k).toNat = 10 ^ k.toNat := by
  rw [← zpow_natCast, ← zpow_natCast, ← zpow_add₀ (by norm_num)]
  congr 1
  omega

/-- Bounds in quarters of a unit, cleared of the power of ten below the line, compare as the numbers
they stand for. -/
theorem quarters_iff {quarters unit candidate : Nat} {bound : ℚ} (hunit : (0 : ℚ) < unit)
    (hquarters : (quarters : ℚ) = 4 * bound) (hcandidate : (candidate : ℚ) = 4 * q * unit) :
    (quarters * unit ≤ candidate ↔ bound ≤ q) ∧ (candidate ≤ quarters * unit ↔ q ≤ bound) := by
  have hcast : ∀ a b : ℕ, a ≤ b ↔ (a : ℚ) ≤ b := fun _ _ => Nat.cast_le.symm
  rw [hcast, hcast, Nat.cast_mul, hquarters, hcandidate,
    mul_le_mul_iff_left₀ hunit, mul_le_mul_iff_left₀ hunit]
  constructor <;> constructor <;> intro h <;> linarith

theorem cast_upper (x : Binary64) :
    ((4 * x.units + 2 * 2 ^ x.scale : ℕ) : ℚ) = 4 * x.upper := by
  simp only [units, upper, step, Nat.pow_eq]
  push_cast
  ring

theorem cast_lower (h : x.isZero = false) :
    ((4 * x.units - if x.mantissa = 4503599627370496 ∧ 0 < x.scale then 2 * 2 ^ x.scale / 2
      else 2 * 2 ^ x.scale : ℕ) : ℚ) = 4 * x.lower := by
  have hle : 2 ^ x.scale ≤ x.mantissa * 2 ^ x.scale :=
    Nat.le_mul_of_pos_left _ (one_le_mantissa h)
  simp only [units, lower, step, reach, Nat.pow_eq]
  split
  · rw [Nat.mul_div_cancel_left _ (by decide), Nat.cast_sub (by omega)]
    push_cast
    ring
  · rw [Nat.cast_sub (by omega)]
    push_cast
    ring

theorem roundsTo_iff (h : x.isZero = false) :
    x.roundsTo digits exponent = true ↔ x.Near (digits * 10 ^ exponent * unitsPerOne) := by
  have hunit : (0 : ℚ) < (10 ^ (-exponent).toNat : ℕ) := by positivity
  simp only [roundsTo, Near, Nat.pow_eq]
  -- Only that it is a whole number counts; `2 ^ 1074` is not to be computed.
  generalize unitsPerOne = U
  have hcandidate : ((4 * digits * 10 ^ exponent.toNat * U : ℕ) : ℚ) =
      4 * (digits * 10 ^ exponent * U) * (10 ^ (-exponent).toNat : ℕ) := by
    push_cast
    rw [← zpow_mul_pow_toNat_neg]
    ring
  obtain ⟨hbelow, hbelow'⟩ := quarters_iff hunit (cast_lower h) hcandidate
  obtain ⟨habove', habove⟩ := quarters_iff hunit x.cast_upper hcandidate
  split
  · next heven =>
    rw [Bool.and_eq_true, decide_eq_true_iff, decide_eq_true_iff, hbelow, habove, le_iff_lt_or_eq,
      le_iff_lt_or_eq]
    simp only [heven, true_and]
  · next hodd =>
    rw [Bool.and_eq_true, decide_eq_true_iff, decide_eq_true_iff, ← not_le (b := _ * _),
      ← not_le (a := (4 * x.units + _) * _), hbelow', habove', not_le, not_le]
    simp only [hodd, false_and, or_false]

/-! ## Different magnitudes -/

/-- The magnitude of `x` is less than that of `y`. -/
def Before (x y : Binary64) : Prop :=
  x.scale < y.scale ∨ x.scale = y.scale ∧ x.mantissa < y.mantissa

theorem reach_le (x : Binary64) : x.reach ≤ 1 / 2 := by
  rw [reach]
  split <;> norm_num

/-- Above the smallest scale the midpoint below is no less than a quarter of a step under the
smallest mantissa. -/
theorem le_mantissa_sub_reach (h : 0 < x.scale) : 4503599627370496 - 1 / 4 ≤ x.mantissa - x.reach := by
  have hm : 4503599627370496 ≤ x.mantissa := x.normal.resolve_left (Nat.ne_of_gt h)
  rcases Nat.eq_or_lt_of_le hm with heq | hlt
  · rw [reach, if_pos ⟨heq.symm, h⟩, ← heq]
    norm_num
  · have hcast : (4503599627370497 : ℚ) ≤ x.mantissa := by exact_mod_cast hlt
    linarith [x.reach_le]

/-- The intervals of two magnitudes touch at most, and then not both mantissas are even. -/
theorem Before.upper_le_lower (h : Before x y) : x.upper ≤ y.lower ∧
    (x.mantissa % 2 = 0 → y.mantissa % 2 = 0 → x.upper < y.lower) := by
  have hstep := x.step_pos
  simp only [upper, lower]
  rcases h with hscale | ⟨hscale, hlt⟩
  -- A larger scale at least doubles the step, and the mantissas there are the upper half of all.
  · have htwice : 2 * x.step ≤ y.step := by
      rw [step, step, ← pow_succ']
      exact pow_le_pow_right₀ (by norm_num) hscale
    have hbelow := le_mantissa_sub_reach (Nat.zero_lt_of_lt hscale)
    have hspan : (4503599627370496 - 1 / 4) * (2 * x.step) ≤ (y.mantissa - y.reach) * y.step :=
      mul_le_mul hbelow htwice (by positivity) (by linarith)
    constructor
    · have hm : (x.mantissa : ℚ) ≤ 9007199254740991 := by
        exact_mod_cast Nat.le_of_lt_succ x.mantissa_lt
      nlinarith
    · intro hx _
      have hm : (x.mantissa : ℚ) ≤ 9007199254740990 := by
        have := x.mantissa_lt
        exact_mod_cast (by omega : x.mantissa ≤ 9007199254740990)
      nlinarith
  · have hreach := y.reach_le
    have hsame : y.step = x.step := by rw [step, step, hscale]
    rw [hsame]
    constructor
    · have hm : (x.mantissa : ℚ) + 1 ≤ y.mantissa := by exact_mod_cast hlt
      exact mul_le_mul_of_nonneg_right (by linarith) hstep.le
    · intro hx hy
      have hm : (x.mantissa : ℚ) + 2 ≤ y.mantissa := by
        exact_mod_cast (by omega : x.mantissa + 2 ≤ y.mantissa)
      exact mul_lt_mul_of_pos_right (by linarith) hstep

theorem Before.not_near (h : Before x y) (hx : x.Near q) : ¬ y.Near q := by
  rintro ⟨hy, -⟩
  obtain ⟨-, hx⟩ := hx
  obtain ⟨hle, hlt⟩ := h.upper_le_lower
  rcases hx with hx | ⟨hxeven, hx⟩
  · rcases hy with hy | ⟨-, hy⟩ <;> linarith
  · rcases hy with hy | ⟨hyeven, hy⟩
    · linarith
    · linarith [hlt hxeven hyeven]

/-- A number rounds to one magnitude. -/
theorem Near.unique (hx : x.Near q) (hy : y.Near q) :
    x.mantissa = y.mantissa ∧ x.scale = y.scale := by
  have hxy : ¬ Before x y := fun h => h.not_near hx hy
  have hyx : ¬ Before y x := fun h => h.not_near hy hx
  unfold Before at hxy hyx
  omega

/-! ## The grid of seventeen digits -/

theorem ten_pow_length_le {n : Nat} (h : n ≠ 0) : 10 ^ ((Nat.toDigits 10 n).length - 1) ≤ n := by
  rcases Nat.eq_zero_or_pos ((Nat.toDigits 10 n).length - 1) with hzero | hpos
  · rw [hzero]
    exact Nat.one_le_iff_ne_zero.2 h
  · by_contra hlt
    have := (Nat.length_toDigits_le_iff (by decide) hpos).2 (Nat.lt_of_not_le hlt)
    omega

theorem lt_ten_pow_length (n : Nat) : n < 10 ^ (Nat.toDigits 10 n).length :=
  (Nat.length_toDigits_le_iff (by decide) Nat.length_toDigits_pos).1 (Nat.le_refl _)

/-- The leading digit of a quotient stands for no more than the quotient. -/
theorem decimalExponent_le {num den : Nat} (hnum : 0 < num) (hden : 0 < den) :
    (10 : ℚ) ^ decimalExponent num den * den ≤ num := by
  have hden' : (0 : ℚ) < den := by exact_mod_cast hden
  rw [decimalExponent]
  split
  · next hle =>
    have hpos : num / den ≠ 0 := Nat.ne_of_gt (Nat.div_pos hle hden)
    have hlength : 0 < (Nat.toDigits 10 (num / den)).length := Nat.length_toDigits_pos
    have hpow : 10 ^ ((Nat.toDigits 10 (num / den)).length - 1) * den ≤ num :=
      (Nat.le_div_iff_mul_le hden).1 (ten_pow_length_le hpos)
    rw [← Nat.cast_pred hlength, zpow_natCast]
    exact_mod_cast hpow
  · next hlt =>
    have hpow : den ≤ num * 10 ^ (Nat.toDigits 10 ((den - 1) / num)).length := by
      have := (Nat.div_lt_iff_lt_mul hnum).1 (lt_ten_pow_length ((den - 1) / num))
      rw [Nat.mul_comm]
      omega
    rw [zpow_neg, zpow_natCast, inv_mul_le_iff₀ (by positivity), mul_comm]
    exact_mod_cast hpow

theorem cast_units (x : Binary64) : (x.units : ℚ) = x.mantissa * x.step := by
  simp only [units, step, Nat.pow_eq]
  push_cast
  rfl

theorem zero_lt_reach (x : Binary64) : 0 < x.reach := by
  rw [reach]
  split <;> norm_num

theorem lower_lt_units (x : Binary64) : x.lower < x.units := by
  rw [lower, cast_units]
  exact mul_lt_mul_of_pos_right (by linarith [x.zero_lt_reach]) x.step_pos

theorem units_lt_upper (x : Binary64) : x.units < x.upper := by
  rw [upper, cast_units]
  exact mul_lt_mul_of_pos_right (by linarith) x.step_pos

/-- A grid of seventeen digits is finer than an interval is wide. -/
theorem lt_upper_sub_lower {size : ℚ} (h : size * 10 ^ 16 ≤ x.units) : size < x.upper - x.lower := by
  have hstep := x.step_pos
  rw [cast_units] at h
  simp only [upper, lower, reach]
  split
  · next hpower =>
    rw [hpower.1] at h ⊢
    norm_num at h ⊢
    linarith
  · have hm : (x.mantissa : ℚ) ≤ 9007199254740991 := by
      exact_mod_cast Nat.le_of_lt_succ x.mantissa_lt
    nlinarith

/-- The neighbours of a number on a grid. -/
theorem below_le_units (x : Binary64) (exponent : Int) {below : Nat}
    (h : below = x.units * 10 ^ (-exponent).toNat / (unitsPerOne * 10 ^ exponent.toNat)) :
    below * 10 ^ exponent * (unitsPerOne : ℚ) ≤ x.units ∧
      (x.units : ℚ) < (below + 1 : ℕ) * 10 ^ exponent * unitsPerOne := by
  have hpos := unitsPerOne_pos
  generalize unitsPerOne = U at *
  have hunit : (0 : ℚ) < 10 ^ (-exponent).toNat := by positivity
  have hden : 0 < U * 10 ^ exponent.toNat := by positivity
  have hle : below * (U * 10 ^ exponent.toNat) ≤ x.units * 10 ^ (-exponent).toNat :=
    h ▸ Nat.div_mul_le_self _ _
  have hlt : x.units * 10 ^ (-exponent).toNat < (below + 1) * (U * 10 ^ exponent.toNat) :=
    (Nat.div_lt_iff_lt_mul hden).1 (h ▸ Nat.lt_succ_self _)
  constructor
  · refine le_of_mul_le_mul_right ?_ hunit
    calc below * 10 ^ exponent * (U : ℚ) * 10 ^ (-exponent).toNat
        = below * (U * 10 ^ exponent.toNat) := by rw [← zpow_mul_pow_toNat_neg exponent]; ring
      _ ≤ x.units * 10 ^ (-exponent).toNat := by exact_mod_cast hle
  · refine lt_of_mul_lt_mul_right ?_ hunit.le
    calc (x.units : ℚ) * 10 ^ (-exponent).toNat
        < (below + 1 : ℕ) * (U * 10 ^ exponent.toNat) := by exact_mod_cast hlt
      _ = (below + 1 : ℕ) * 10 ^ exponent * U * 10 ^ (-exponent).toNat := by
        rw [← zpow_mul_pow_toNat_neg exponent]; ring

theorem isSome_onGrid? {below : Nat}
    (hbelow : below = x.units * 10 ^ (-exponent).toNat / (unitsPerOne * 10 ^ exponent.toNat))
    (h : x.roundsTo below exponent = true ∨ x.roundsTo (below + 1) exponent = true) :
    (x.onGrid? exponent).isSome = true := by
  subst hbelow
  simp only [onGrid?, Nat.pow_eq]
  split
  · rfl
  · rfl
  · rfl
  · next hbelow habove =>
    rw [hbelow, habove] at h
    simp at h

theorem roundQuotient_eq (num den : Nat) :
    roundQuotient num den = num / den ∨ roundQuotient num den = num / den + 1 := by
  simp only [roundQuotient]
  split
  · exact .inl rfl
  · split <;> omega

theorem roundsTo_of_onGrid? (h : x.onGrid? exponent = some digits) :
    x.roundsTo digits exponent = true := by
  simp only [onGrid?] at h
  split at h
  · next hbelow habove =>
    obtain rfl := Option.some.inj h
    rcases roundQuotient_eq (x.units * Nat.pow 10 (-exponent).toNat)
      (unitsPerOne * Nat.pow 10 exponent.toNat) with heq | heq
    · rw [heq]
      exact hbelow
    · rw [heq]
      exact habove
  · next hbelow _ =>
    obtain rfl := Option.some.inj h
    exact hbelow
  · next _ habove =>
    obtain rfl := Option.some.inj h
    exact habove
  · cases h

/-- On a grid that is finer than the interval a neighbour of the number rounds to it. -/
theorem exists_onGrid (h : x.isZero = false)
    (hsize : 10 ^ exponent * unitsPerOne * 10 ^ 16 ≤ (x.units : ℚ)) :
    (x.onGrid? exponent).isSome = true := by
  obtain ⟨hle, hlt⟩ := x.below_le_units exponent rfl
  refine isSome_onGrid? rfl ?_
  have hwidth := lt_upper_sub_lower hsize
  rw [roundsTo_iff h, roundsTo_iff h]
  generalize x.units * 10 ^ (-exponent).toNat / (unitsPerOne * 10 ^ exponent.toNat) = below at *
  -- If the neighbour below is out of the interval, the one above cannot be beyond its other end.
  by_cases hbelow : x.lower < below * 10 ^ exponent * unitsPerOne
  · exact .inl ⟨.inl hbelow, .inl (lt_of_le_of_lt hle x.units_lt_upper)⟩
  · refine .inr ⟨.inl (x.lower_lt_units.trans hlt), .inl ?_⟩
    calc ((below + 1 : ℕ) : ℚ) * 10 ^ exponent * unitsPerOne
        = below * 10 ^ exponent * unitsPerOne + 10 ^ exponent * unitsPerOne := by push_cast; ring
      _ < x.lower + (x.upper - x.lower) := add_lt_add_of_le_of_lt (not_lt.1 hbelow) hwidth
      _ = x.upper := by ring

/-! ## The shortest decimal -/

/-- Trailing zeros may stand among the digits or in the exponent. -/
theorem value_dropZeros (fuel : Nat) (d : Decimal.Scientific) :
    (dropZeros fuel d).value = d.value := by
  fun_induction dropZeros fuel d with
  | case1 => rfl
  | case2 fuel d hzero ih =>
    rw [ih, Decimal.Scientific.value, Decimal.Scientific.value, zpow_add_one₀ (by norm_num)]
    have hdigits : (d.digits : ℚ) = (d.digits / 10 : ℕ) * 10 := by
      exact_mod_cast (Nat.div_mul_cancel (Nat.dvd_of_mod_eq_zero hzero.1)).symm
    rw [hdigits]
    ring
  | case3 => rfl

/-- Of the grids that are looked at, the finest one has a decimal that rounds to the number. -/
theorem exists_shortest (h : x.isZero = false) : ∃ digits exponent,
    x.onGrid? exponent = some digits ∧ x.shortest = dropZeros 17 ⟨digits, exponent⟩ := by
  have hunits : 0 < x.units := Nat.mul_pos (one_le_mantissa h) (Nat.two_pow_pos _)
  have hleading := decimalExponent_le hunits unitsPerOne_pos
  simp only [shortest]
  generalize decimalExponent x.units unitsPerOne = leading at *
  have hsize : (10 : ℚ) ^ (leading - 16) * unitsPerOne * 10 ^ 16 ≤ x.units := by
    calc (10 : ℚ) ^ (leading - 16) * unitsPerOne * 10 ^ 16
        = 10 ^ (leading - 16) * 10 ^ (16 : ℤ) * unitsPerOne := by
          rw [mul_right_comm]
          rfl
      _ = 10 ^ leading * unitsPerOne := by
          rw [← zpow_add₀ (by norm_num), sub_add_cancel]
      _ ≤ x.units := hleading
  have hlast := exists_onGrid h hsize
  generalize hfound : List.findSome? _ (List.range 17) = found
  cases found with
  | none =>
    have := List.findSome?_eq_none_iff.1 hfound 16 (by decide)
    rw [Option.map_eq_none_iff] at this
    exact absurd (this ▸ hlast) (by decide)
  | some d =>
    obtain ⟨more, -, hmore⟩ := List.exists_of_findSome?_eq_some hfound
    obtain ⟨digits, hdigits, rfl⟩ := Option.map_eq_some_iff.1 hmore
    exact ⟨digits, _, hdigits, rfl⟩

/-- What is printed for a number rounds to it. -/
theorem near_shortest (h : x.isZero = false) : x.Near (x.shortest.value * unitsPerOne) := by
  obtain ⟨digits, exponent, hgrid, hshortest⟩ := exists_shortest h
  rw [hshortest, value_dropZeros, Decimal.Scientific.value]
  exact (roundsTo_iff h).1 (roundsTo_of_onGrid? hgrid)

/-- The shortest decimals of different magnitudes denote different numbers. -/
theorem shortest_inj (hx : x.isZero = false) (hy : y.isZero = false)
    (h : x.shortest.value = y.shortest.value) : x.mantissa = y.mantissa ∧ x.scale = y.scale := by
  refine (near_shortest hx).unique ?_
  rw [h]
  exact near_shortest hy

theorem digits_shortest_ne_zero (h : x.isZero = false) : x.shortest.digits ≠ 0 := by
  intro hdigits
  have hm : (1 : ℚ) ≤ x.mantissa := by exact_mod_cast one_le_mantissa h
  have hlower : 0 < x.lower := mul_pos (by linarith [x.reach_le]) x.step_pos
  have hle : x.lower ≤ x.shortest.value * unitsPerOne :=
    (near_shortest h).1.elim le_of_lt fun h => h.2.le
  rw [Decimal.Scientific.value, hdigits, Nat.cast_zero, zero_mul, zero_mul] at hle
  linarith

end Binary64

end StepLedger

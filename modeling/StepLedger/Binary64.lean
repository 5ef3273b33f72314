/-!
# Finite binary64 numbers

A finite binary64 number is a sign and a magnitude of `mantissa * 2 ^ scale` units, where a unit is
`2 ^ -1074`, the smallest positive magnitude. `Binary64.nearest?` rounds an exact quotient to the
nearest such number, ties going to the even mantissa, and refuses what is too large. Everything is
whole-number arithmetic, so products and quotients are rounded once from their exact values.
-/

namespace StepLedger

/-- A finite binary64 number of `mantissa * 2 ^ scale` units. -/
structure Binary64 where
  /-- Whether the sign is minus; zero has a sign too. -/
  negative : Bool
  mantissa : Nat
  scale : Nat
  /-- No mantissa has more than 53 bits. -/
  mantissa_lt : mantissa < 9007199254740992
  /-- Only the smallest scale holds mantissas of fewer than 53 bits. -/
  normal : scale = 0 ∨ 4503599627370496 ≤ mantissa
  scale_le : scale ≤ 2045
deriving DecidableEq, Repr

/-- The whole number nearest to `num / den`, ties going to the even one. -/
def roundQuotient (num den : Nat) : Nat :=
  let quotient := num / den
  let rest := num % den
  if 2 * rest < den then quotient
  else if den < 2 * rest then quotient + 1
  else quotient + quotient % 2

namespace Binary64

/-- How many units make one. -/
def unitsPerOne : Nat := Nat.pow 2 1074

/-- The magnitude in units. -/
def units (x : Binary64) : Nat := x.mantissa * Nat.pow 2 x.scale

/-- Zero with a sign. -/
def zero (negative : Bool) : Binary64 where
  negative := negative
  mantissa := 0
  scale := 0
  mantissa_lt := by decide
  normal := .inl rfl
  scale_le := by decide

/-- Whether the magnitude is zero. -/
def isZero (x : Binary64) : Bool := x.mantissa = 0

/-- Equality of the numbers denoted: the two zeros are one number. -/
def same (x y : Binary64) : Bool := x = y || (x.isZero && y.isZero)

/-- The number nearest to `num / den` units, ties going to the even mantissa; none if it is too
large. -/
def nearest? (negative : Bool) (num den : Nat) : Option Binary64 :=
  let scale := (num / den).log2 - 52
  let mantissa := roundQuotient num (den * Nat.pow 2 scale)
  if h : mantissa < 9007199254740992 ∧ (scale = 0 ∨ 4503599627370496 ≤ mantissa) ∧ scale ≤ 2045 then
    some ⟨negative, mantissa, scale, h.1, h.2.1, h.2.2⟩
  else if h : scale + 1 ≤ 2045 then
    some ⟨negative, 4503599627370496, scale + 1, by decide, .inr (Nat.le_refl _), h⟩
  else none

/-- The number nearest to a whole number. -/
def ofNat? (negative : Bool) (n : Nat) : Option Binary64 :=
  nearest? negative (n * unitsPerOne) 1

/-- The product, with the sign of the first factor. -/
def mul? (x y : Binary64) : Option Binary64 :=
  nearest? x.negative (x.units * y.units) unitsPerOne

/-- The quotient, with the sign of the dividend. -/
def div? (x y : Binary64) : Option Binary64 :=
  nearest? x.negative (x.units * unitsPerOne) y.units

/-! ## Decimal scaling -/

/-- The largest power of ten that is a binary64 number. -/
def maxPowerOfTen : Nat := 308

/-- The number nearest to `10 ^ k`. -/
def powerOfTen? (k : Nat) : Option Binary64 := ofNat? false (Nat.pow 10 k)

/-- `x` times the number nearest to `10 ^ k`; none if either is too large. -/
def timesPowerOfTen? (x : Binary64) (k : Nat) : Option Binary64 :=
  if k ≤ maxPowerOfTen then (powerOfTen? k).bind x.mul?
  else if x.isZero then some x
  else none

/-- `x` divided by the largest power of ten, `times` times over or until nothing is left. -/
def overLargestPower? (x : Binary64) : Nat → Option Binary64
  | 0 => some x
  | times + 1 =>
    if x.isZero then some x
    else ((powerOfTen? maxPowerOfTen).bind x.div?).bind fun y => y.overLargestPower? times

/-- `x` divided by the number nearest to `10 ^ k`. A power that is itself too large is divided by in
steps of `10 ^ 308`, and by what remains of it last. -/
def overPowerOfTen? (x : Binary64) (k : Nat) : Option Binary64 :=
  let times := (k - 1) / maxPowerOfTen
  (x.overLargestPower? times).bind fun y => (powerOfTen? (k - times * maxPowerOfTen)).bind y.div?

/-- The number that `significand * 10 ^ exponent` is read as: the nearest number to the significand,
times or over a power of ten. -/
def ofScientific? (negative : Bool) (significand : Nat) (exponent : Int) : Option Binary64 :=
  (ofNat? negative significand).bind fun x =>
    if exponent < 0 then x.overPowerOfTen? exponent.natAbs else x.timesPowerOfTen? exponent.toNat

end Binary64

end StepLedger

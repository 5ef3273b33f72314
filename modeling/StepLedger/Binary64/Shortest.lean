import StepLedger.Binary64

/-!
# The shortest decimal that reads back

Every real number between the two midpoints around a binary64 number rounds to it.
`Binary64.shortest` is the decimal of fewest digits in that interval, and of those with as few
digits the one nearest to the number, a tie going to the even last digit. On the grid of decimals
with a given number of digits only the two neighbours of the number need a look: if any point of
the grid lies in the interval, so does one of them.
-/

namespace StepLedger

/-- The decimal `digits * 10 ^ exponent`. -/
structure Decimal.Scientific where
  digits : Nat
  exponent : Int
deriving DecidableEq, Repr

namespace Binary64

/-- The exponent `k` with `10 ^ k ≤ num / den < 10 ^ (k + 1)`. -/
def decimalExponent (num den : Nat) : Int :=
  if den ≤ num then (Nat.toDigits 10 (num / den)).length - 1
  else -((Nat.toDigits 10 ((den - 1) / num)).length : Int)

/-- Whether `digits * 10 ^ exponent` rounds to `x`. Bounds are compared in quarters of a unit; the
midpoints themselves round to `x` when its mantissa is even. The gap below a power of two is half
the gap above it. -/
def roundsTo (x : Binary64) (digits : Nat) (exponent : Int) : Bool :=
  let half := 2 * Nat.pow 2 x.scale
  let below := if x.mantissa = 4503599627370496 ∧ 0 < x.scale then half / 2 else half
  let lower := 4 * x.units - below
  let upper := 4 * x.units + half
  let candidate := 4 * digits * Nat.pow 10 exponent.toNat * unitsPerOne
  let unit := Nat.pow 10 (-exponent).toNat
  if x.mantissa % 2 = 0 then lower * unit ≤ candidate && candidate ≤ upper * unit
  else lower * unit < candidate && candidate < upper * unit

/-- The decimal on the grid of `10 ^ exponent` that rounds to `x` and is nearest to it. -/
def onGrid? (x : Binary64) (exponent : Int) : Option Nat :=
  let num := x.units * Nat.pow 10 (-exponent).toNat
  let den := unitsPerOne * Nat.pow 10 exponent.toNat
  let below := num / den
  match x.roundsTo below exponent, x.roundsTo (below + 1) exponent with
  | true, true => some (roundQuotient num den)
  | true, false => some below
  | false, true => some (below + 1)
  | false, false => none

/-- Move trailing zeros from the digits into the exponent, as many as `fuel` at most. -/
def dropZeros : Nat → Decimal.Scientific → Decimal.Scientific
  | 0, d => d
  | fuel + 1, d =>
    if d.digits % 10 = 0 ∧ d.digits ≠ 0 then dropZeros fuel ⟨d.digits / 10, d.exponent + 1⟩ else d

/-- The shortest decimal that reads back as the magnitude of `x`; seventeen digits always do. -/
def shortest (x : Binary64) : Decimal.Scientific :=
  let leading := decimalExponent x.units unitsPerOne
  let found := (List.range 17).findSome? fun (more : Nat) =>
    let exponent := leading - (more : Int)
    (x.onGrid? exponent).map fun digits => (⟨digits, exponent⟩ : Decimal.Scientific)
  dropZeros 17 (found.getD ⟨0, 0⟩)

end Binary64

end StepLedger

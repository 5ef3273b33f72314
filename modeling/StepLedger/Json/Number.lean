import StepLedger.Binary64.Shortest
import StepLedger.Decimal

/-!
# JSON numbers

A number is either a whole number of 64 bits, with or without sign, or a finite binary64 number.
The two kinds never equal each other: `1` and `1.0` are different values. `Number.render` writes a
number; `Numeral.number?` says which number a numeral of the JSON grammar denotes.

A numeral without fraction and exponent that fits 64 bits is a whole number; any other, `-0`
included, is a binary64 number. It is read from the leading digits that fit 64 bits, scaled by a
power of ten (`Binary64.ofScientific?`).
-/

namespace StepLedger.Json

/-- A whole number of 64 bits, signed or unsigned, or a finite binary64 number. -/
inductive Number where
  /-- A whole number from `-2 ^ 63` up to, but not including, `2 ^ 64`. -/
  | int (value : Int) (lower : -9223372036854775808 ≤ value)
    (upper : value < 18446744073709551616)
  /-- A finite binary64 number. -/
  | float (value : Binary64)
deriving DecidableEq, Repr

namespace Number

/-- Equality of numbers of one kind; the two zeros of binary64 are equal. -/
def same : Number → Number → Bool
  | .int m _ _, .int n _ _ => m = n
  | .float x, .float y => x.same y
  | _, _ => false

/-- A signed 64-bit word as a number. -/
def ofInt64 (n : Int64) : Number :=
  .int n.toInt (Int.le_trans (by decide) n.le_toInt) (Int.lt_trans n.toInt_lt (by decide))

/-- A signed 32-bit word as a number. -/
def ofInt32 (n : Int32) : Number :=
  .int n.toInt (Int.le_trans (by decide) n.le_toInt) (Int.lt_trans n.toInt_lt (by decide))

/-- An unsigned 32-bit word as a number. -/
def ofUInt32 (n : UInt32) : Number :=
  .int n.toNat (Int.le_trans (by decide) (Int.natCast_nonneg _))
    (Int.lt_trans (Int.ofNat_lt.2 n.toNat_lt) (by decide))

/-- The whole number that fits a signed 64-bit word, if this is one. -/
def toInt64? : Number → Option Int64
  | .int n _ _ => if n < 9223372036854775808 then some (.ofInt n) else none
  | .float _ => none

/-! ## Writing -/

/-- Numbers whose leading digit stands for `10 ^ k` are written without exponent for these `k`. -/
def isPositional (leading : Int) : Bool := -5 ≤ leading && leading < 16

/-- A positive decimal. Without exponent a point always stands among the digits; with exponent it
follows the first digit if there are more, and the exponent carries its sign. -/
def renderScientific (d : Decimal.Scientific) : List Char :=
  let digits := Decimal.ofNat d.digits
  let leading := (digits.length : Int) + d.exponent - 1
  if isPositional leading then
    if 0 ≤ d.exponent then
      digits ++ List.replicate d.exponent.toNat '0' ++ ['.', '0']
    else if 0 ≤ leading then
      digits.take (leading.toNat + 1) ++ '.' :: digits.drop (leading.toNat + 1)
    else '0' :: '.' :: List.replicate (-leading - 1).toNat '0' ++ digits
  else
    let mark := if leading < 0 then ['e', '-'] else ['e', '+']
    let tail := if digits.length = 1 then [] else '.' :: digits.drop 1
    digits.take 1 ++ tail ++ mark ++ Decimal.ofNat leading.natAbs

/-- The text of a binary64 number. -/
def renderFloat (x : Binary64) : List Char :=
  let magnitude := if x.isZero then ['0', '.', '0'] else renderScientific x.shortest
  if x.negative then '-' :: magnitude else magnitude

/-- The text of a number. -/
def render : Number → List Char
  | .int n _ _ => Decimal.ofInt n
  | .float x => renderFloat x

end Number

/-! ## Reading -/

/-- The parts of a numeral: sign, digits before the point, digits after it if there is one, and the
exponent if there is one. -/
structure Numeral where
  negative : Bool
  whole : List Char
  fraction : Option (List Char)
  exponent : Option Int
deriving DecidableEq, Repr

namespace Numeral

/-- Digits gathered into a significand while it fits 64 bits. -/
structure Significand where
  value : Nat
  /-- The power of ten that the digits left out or taken from the fraction stand for. -/
  exponent : Int
  /-- Whether a digit did not fit, so that the later ones are left out too. -/
  full : Bool
deriving DecidableEq, Repr

/-- Add a digit in front of the point. -/
def Significand.pushWhole (s : Significand) (digit : Char) : Significand :=
  let next := s.value * 10 + Decimal.toNat [digit]
  if s.full ∨ 18446744073709551616 ≤ next then { s with exponent := s.exponent + 1, full := true }
  else { s with value := next }

/-- Add a digit behind the point. -/
def Significand.pushFraction (s : Significand) (digit : Char) : Significand :=
  let next := s.value * 10 + Decimal.toNat [digit]
  if s.full ∨ 18446744073709551616 ≤ next then { s with full := true }
  else { s with value := next, exponent := s.exponent - 1 }

/-- The significand of all digits. The fraction is gathered afresh: a digit that does not fit in
front of the point does not close it. -/
def significand (n : Numeral) : Significand :=
  let whole := n.whole.foldl Significand.pushWhole ⟨0, 0, false⟩
  (n.fraction.getD []).foldl Significand.pushFraction { whole with full := false }

/-- The number denoted by a numeral; none if it is too large for binary64. -/
def number? (n : Numeral) : Option Number :=
  let s := n.significand
  if n.fraction.isNone ∧ n.exponent.isNone then
    let magnitude := Decimal.toNat n.whole
    let value : Int := if n.negative then -(magnitude : Int) else magnitude
    if h : (-9223372036854775808 ≤ value ∧ value < 18446744073709551616) ∧
        ¬ (n.negative ∧ magnitude = 0) then
      some (.int value h.1.1 h.1.2)
    else (Binary64.ofScientific? n.negative s.value s.exponent).map .float
  else
    (Binary64.ofScientific? n.negative s.value (s.exponent + n.exponent.getD 0)).map .float

/-- A run of digits, at least one. -/
def digits? (text : List Char) : Option (List Char × List Char) :=
  let run := text.takeWhile Char.isDigit
  if run.isEmpty then none else some (run, text.dropWhile Char.isDigit)

/-- The exponent after its letter: an optional sign and digits to the end. -/
def exponent? (text : List Char) : Option Int :=
  match text with
  | '+' :: text => unsigned? text
  | '-' :: text => (unsigned? text).map (- ·)
  | text => unsigned? text
where
  unsigned? (text : List Char) : Option Int :=
    match digits? text with
    | some (run, []) => some (Decimal.toNat run)
    | _ => none

/-- What follows the digits in front of the point. -/
def tail? (negative : Bool) (whole text : List Char) : Option Numeral :=
  match text with
  | [] => some ⟨negative, whole, none, none⟩
  | '.' :: text =>
    match digits? text with
    | some (fraction, []) => some ⟨negative, whole, some fraction, none⟩
    | some (fraction, mark :: text) =>
      if mark = 'e' ∨ mark = 'E' then
        (exponent? text).map fun exponent => ⟨negative, whole, some fraction, some exponent⟩
      else none
    | none => none
  | mark :: text =>
    if mark = 'e' ∨ mark = 'E' then
      (exponent? text).map fun exponent => ⟨negative, whole, none, some exponent⟩
    else none

/-- Read the whole of a text as a numeral: no plus sign in front, no leading zero, a digit on either
side of the point. -/
def ofText? (text : List Char) : Option Numeral :=
  let (negative, magnitude) := match text with
    | '-' :: magnitude => (true, magnitude)
    | magnitude => (false, magnitude)
  match digits? magnitude with
  | some (whole, rest) =>
    if whole.length = 1 ∨ whole.head? ≠ some '0' then tail? negative whole rest else none
  | none => none

end Numeral

end StepLedger.Json

/-!
# Decimal text of whole numbers

`Decimal.ofNat` and `Decimal.ofInt` write a number with no leading zero, a minus sign in front of a
negative one. `Decimal.toNat` reads a run of digits, leading zeros included; it undoes `ofNat`
(`toNat_ofNat`).
-/

namespace StepLedger.Decimal

/-- The decimal digits of a number. -/
def ofNat (n : Nat) : List Char := Nat.toDigits 10 n

/-- The decimal digits of a number after its sign. -/
def ofInt (n : Int) : List Char :=
  if n < 0 then '-' :: ofNat n.natAbs else ofNat n.natAbs

/-- The number that a run of digits denotes. -/
def toNat (digits : List Char) : Nat := Nat.ofDigitChars 10 digits 0

theorem toNat_ofNat (n : Nat) : toNat (ofNat n) = n :=
  Nat.ofDigitChars_ten_toDigits

/-- The last `width` digits of a number, zeros in front. -/
def padded (width n : Nat) : List Char :=
  let digits := ofNat n
  List.replicate (width - digits.length) '0' ++ digits

/-- A whole number as a command line or a URL spells it: an optional sign and at least one digit. -/
def toInt? : List Char → Option Int
  | [] => none
  | '-' :: digits => if unsigned digits then some (-(toNat digits : Int)) else none
  | '+' :: digits => if unsigned digits then some (toNat digits) else none
  | digits => if unsigned digits then some (toNat digits) else none
where
  /-- At least one digit and nothing else. -/
  unsigned (digits : List Char) : Bool := !digits.isEmpty && digits.all Char.isDigit

end StepLedger.Decimal

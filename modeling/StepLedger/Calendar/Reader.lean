import StepLedger.Calendar.Instant
import StepLedger.Text.Blank

/-!
# Reading times

`Instant.ofText` reads a date, a time of day and a time zone. It takes what RFC 3339 demands and
more: numbers need not be padded, white space may stand between the parts, the separator may be a
space, a year may have a sign and then any number of digits, and the zone may be `UTC` or lack its
colon. A number that is out of its range is refused as soon as it is read, a date that does not
exist and an offset of a day or more at the end.
-/

namespace StepLedger.Calendar

/-- Why a text is not a time. -/
inductive TimeError where
  | outOfRange
  | impossible
  | invalid
  | tooShort
  | tooLong
deriving DecidableEq, Repr

/-- What is wrong, in words. -/
def TimeError.message : TimeError → String
  | .outOfRange => "input is out of range"
  | .impossible => "no possible date and time matching input"
  | .invalid => "input contains invalid characters"
  | .tooShort => "premature end of input"
  | .tooLong => "trailing input"

namespace Reader

/-- A number of at least one digit and at most `width`; it has to fit a signed 64-bit word. -/
def number (width : Nat) (text : List Char) : Except TimeError (Nat × List Char) :=
  match text with
  | [] => .error .tooShort
  | _ =>
    let digits := (text.take width).takeWhile Char.isDigit
    if digits.isEmpty then .error .invalid
    else
      let n := Decimal.toNat digits
      if n < 9223372036854775808 then .ok (n, text.drop digits.length) else .error .outOfRange

/-- A number of one or two digits after white space, between two bounds. -/
def within (lower upper : Nat) (text : List Char) : Except TimeError (Nat × List Char) := do
  let (n, text) ← number 2 (Text.trimStart text)
  if lower ≤ n ∧ n ≤ upper then return (n, text) else throw .outOfRange

/-- A character that has to stand here after white space. -/
def literal (c : Char) (text : List Char) : Except TimeError (List Char) :=
  match Text.trimStart text with
  | [] => .error .tooShort
  | d :: text => if d = c then .ok text else .error .invalid

/-- A number that has to fit a signed 32-bit word. -/
def word (n : Int) (text : List Char) : Except TimeError (Int × List Char) :=
  if -2147483648 ≤ n ∧ n < 2147483648 then .ok (n, text) else .error .outOfRange

/-- A year of up to four digits, or of any number of digits after a sign; it has to fit a signed
32-bit word. -/
def year (text : List Char) : Except TimeError (Int × List Char) :=
  signed (Text.trimStart text)
where
  /-- A year without white space in front. -/
  signed (text : List Char) : Except TimeError (Int × List Char) :=
    match text with
    | '-' :: text => do
      let (n, text) ← number text.length text
      word (-(n : Int)) text
    | '+' :: text => do
      let (n, text) ← number text.length text
      word n text
    | text => do
      let (n, text) ← number 4 text
      word n text

/-- The nanoseconds of a fraction, if there is one; digits after the ninth do not count. -/
def fraction (text : List Char) : Except TimeError (Nat × List Char) :=
  match text with
  | '.' :: text => do
    let (n, rest) ← number 9 text
    let digits := text.length - rest.length
    return (n * Nat.pow 10 (9 - digits), rest.dropWhile Char.isDigit)
  | text => .ok (0, text)

/-- The first two characters, which have to be there; one character of several bytes passes for
two. -/
def pair (text : List Char) : Except TimeError (Char × Char) :=
  match text with
  | a :: b :: _ => .ok (a, b)
  | [a] => if 1 < a.utf8Size then .ok (a, a) else .error .tooShort
  | [] => .error .tooShort

/-- The minutes of an offset after its sign: two digits of hours, then colons and white space, then
two digits of minutes. -/
def offsetMinutes (text : List Char) : Except TimeError (Nat × List Char) := do
  let (a, b) ← pair text
  if !a.isDigit || !b.isDigit then throw .invalid
  let text := (text.drop 2).dropWhile fun c => c = ':' || Text.isBlank c
  let (c, d) ← pair text
  if !c.isDigit || !d.isDigit then throw .invalid
  if '6' ≤ c then throw .outOfRange
  return (60 * Decimal.toNat [a, b] + Decimal.toNat [c, d], text.drop 2)

/-- The offset of a time zone in minutes. -/
def offset (text : List Char) : Except TimeError (Int × List Char) :=
  match text with
  | u :: t :: c :: rest =>
    if u.toUpper = 'U' ∧ t.toUpper = 'T' ∧ c.toUpper = 'C' then .ok (0, rest) else signed text
  | _ => signed text
where
  /-- An offset that is not the word `UTC`. -/
  signed (text : List Char) : Except TimeError (Int × List Char) :=
    match text with
    | [] => .error .tooShort
    | c :: text =>
      if c = 'Z' ∨ c = 'z' then .ok (0, text)
      else if c = '+' then do
        let (n, text) ← offsetMinutes text
        return ((n : Int), text)
      else if c = '-' ∨ c = '−' then do
        let (n, text) ← offsetMinutes text
        return (-(n : Int), text)
      else .error .invalid

/-- The character between date and time. -/
def separator (text : List Char) : Except TimeError (List Char) :=
  match text with
  | [] => .error .tooShort
  | c :: text => if c = 't' ∨ c = 'T' ∨ c = ' ' then .ok text else .error .invalid

end Reader

/-- The instant that a text names by its numbers: a date, a time of day and an offset in minutes. -/
def Instant.ofNumbers (year : Int) (month day hour minute second nanosecond : Nat) (offset : Int) :
    Except TimeError Instant := do
  let some date := Date.ofNumbers? year month day | throw .outOfRange
  if 1440 ≤ offset ∨ offset ≤ -1440 then throw .outOfRange
  let leap := second / 60
  let ofDay := hour * 3600 + minute * 60 + second - leap
  let some instant := Instant.ofLocal? date ofDay (nanosecond + leap * 1000000000) offset
    | throw .impossible
  return instant

open Reader in
/-- Read an instant. -/
def Instant.ofText (text : String) : Except TimeError Instant := do
  let (year, text) ← Reader.year text.toList
  let text ← literal '-' text
  let (month, text) ← within 1 12 text
  let text ← literal '-' text
  let (day, text) ← within 1 31 text
  let text ← separator text
  let (hour, text) ← within 0 23 text
  let text ← literal ':' text
  let (minute, text) ← within 0 59 text
  let text ← literal ':' text
  let (second, text) ← within 0 60 text
  let (nanosecond, text) ← fraction text
  let (offset, text) ← Reader.offset (Text.trimStart text)
  if !(Text.trimStart text).isEmpty then throw .tooLong
  ofNumbers year month day hour minute second nanosecond offset

end StepLedger.Calendar

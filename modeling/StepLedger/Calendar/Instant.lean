import StepLedger.Calendar.Date

/-!
# Instants

An `Instant` is a date and a time of that day in universal time, down to the nanosecond. A leap
second is the second after the last one of a minute: it is kept as that last second with a
nanosecond count of `10 ^ 9` and more, and written as second 60. After any other second such a count
is a time within the next one, and is written as that.

`Instant.render` writes the time zone as `Z` and the fraction with as many groups of three digits as
it needs. `Instant.ofLocal?` is the instant that a clock in another time zone shows.
-/

namespace StepLedger.Calendar

/-- A date and a time of day in universal time. -/
structure Instant where
  date : Date
  /-- Seconds since midnight. -/
  second : Nat
  nanosecond : Nat
  second_mem : 0 ≤ second ∧ second < 86400
  nanosecond_mem : 0 ≤ nanosecond ∧ nanosecond < 2000000000
deriving DecidableEq, Repr

namespace Instant

theorem second_lt (i : Instant) : i.second < 86400 := i.second_mem.2

theorem nanosecond_lt (i : Instant) : i.nanosecond < 2000000000 := i.nanosecond_mem.2

/-- Earlier seconds are less, and in one second fewer nanoseconds; so a leap second lies between its
neighbours. -/
def compare (a b : Instant) : Ordering :=
  ((a.date.compare b.date).then (Ord.compare a.second b.second)).then
    (Ord.compare a.nanosecond b.nanosecond)

/-- The instant at which a clock that is `offset` minutes ahead of universal time shows the given
date and time; none if it lies outside the calendar. -/
def ofLocal? (date : Date) (second nanosecond : Nat) (offset : Int) : Option Instant :=
  let total : Int := (second : Int) - 60 * offset
  let day? := if total < 0 then date.previous? else if 86400 ≤ total then date.next? else some date
  let utc := (total % 86400).toNat
  if h : nanosecond < 2000000000 then
    day?.map fun day =>
      { date := day, second := utc, nanosecond := nanosecond
        second_mem := by omega
        nanosecond_mem := ⟨Nat.zero_le _, h⟩ }
  else none

/-- The fraction of a second with its point: nothing, thousandths, millionths or billionths. -/
def renderFraction (nanosecond : Nat) : List Char :=
  if nanosecond = 0 then []
  else if nanosecond % 1000000 = 0 then '.' :: Decimal.padded 3 (nanosecond / 1000000)
  else if nanosecond % 1000 = 0 then '.' :: Decimal.padded 6 (nanosecond / 1000)
  else '.' :: Decimal.padded 9 nanosecond

/-- The text of an instant in universal time. -/
def render (i : Instant) : List Char :=
  let second := i.second % 60 + i.nanosecond / 1000000000
  i.date.render ++ 'T' :: Decimal.padded 2 (i.second / 3600) ++
    ':' :: Decimal.padded 2 (i.second / 60 % 60) ++
    ':' :: Decimal.padded 2 second ++ renderFraction (i.nanosecond % 1000000000) ++ ['Z']

/-- The text of an instant as a string. -/
def text (i : Instant) : String := String.ofList i.render

/-! ## Counting from 1970 -/

/-- Whole days after the first of January of `year`, counted forward from there. -/
def dateAfter? (year : Int) (days : Nat) : Option Date :=
  if days < daysInYear year then inYear? year 1 days 12
  else dateAfter? (year + 1) (days - daysInYear year)
termination_by days
decreasing_by have := daysInYear_pos year; omega
where
  /-- Whole days after the first of `month`, within the months left. -/
  inYear? (year : Int) (month days : Nat) : Nat → Option Date
    | 0 => none
    | months + 1 =>
      let length := daysInMonth year month
      if days < length then Date.ofNumbers? year month (days + 1)
      else inYear? year (month + 1) (days - length) months

/-- The instant a number of seconds and nanoseconds after the beginning of 1970. -/
def ofUnixTime? (seconds nanosecond : Nat) : Option Instant :=
  (dateAfter? 1970 (seconds / 86400)).bind fun date =>
    ofLocal? date (seconds % 86400) (nanosecond % 1000000000) 0

end Instant

end StepLedger.Calendar

import StepLedger.Decimal

/-!
# Calendar dates

A `Date` is a day of the proleptic Gregorian calendar within the years that the library knows.
`Date.next?` and `Date.previous?` are the neighbouring days; the first day has none before it and
the last day none after it.
-/

namespace StepLedger.Calendar

/-- Every fourth year is a leap year, of the centuries only every fourth. -/
def isLeapYear (year : Int) : Bool := year % 4 = 0 && (year % 100 ≠ 0 || year % 400 = 0)

/-- How many days a month has. -/
def daysInMonth (year : Int) (month : Nat) : Nat :=
  if month = 2 then if isLeapYear year then 29 else 28
  else if month = 4 ∨ month = 6 ∨ month = 9 ∨ month = 11 then 30
  else 31

/-- How many days a year has. -/
def daysInYear (year : Int) : Nat := if isLeapYear year then 366 else 365

theorem daysInYear_pos (year : Int) : 0 < daysInYear year := by
  unfold daysInYear; split <;> decide

/-- The first year of the calendar. -/
def firstYear : Int := -262143

/-- The last year of the calendar. -/
def lastYear : Int := 262142

/-- A day of the calendar. -/
structure Date where
  year : Int
  month : Nat
  day : Nat
  year_mem : firstYear ≤ year ∧ year ≤ lastYear
  month_mem : 1 ≤ month ∧ month ≤ 12
  day_mem : 1 ≤ day ∧ day ≤ daysInMonth year month
deriving DecidableEq, Repr

namespace Date

/-- The date of the given numbers, if there is such a day. -/
def ofNumbers? (year : Int) (month day : Nat) : Option Date :=
  if hy : firstYear ≤ year ∧ year ≤ lastYear then
    if hm : 1 ≤ month ∧ month ≤ 12 then
      if hd : 1 ≤ day ∧ day ≤ daysInMonth year month then some ⟨year, month, day, hy, hm, hd⟩
      else none
    else none
  else none

/-- The day after. -/
def next? (d : Date) : Option Date :=
  if d.day < daysInMonth d.year d.month then ofNumbers? d.year d.month (d.day + 1)
  else if d.month < 12 then ofNumbers? d.year (d.month + 1) 1
  else ofNumbers? (d.year + 1) 1 1

/-- The day before. -/
def previous? (d : Date) : Option Date :=
  if 1 < d.day then ofNumbers? d.year d.month (d.day - 1)
  else if 1 < d.month then ofNumbers? d.year (d.month - 1) (daysInMonth d.year (d.month - 1))
  else ofNumbers? (d.year - 1) 12 31

/-- Earlier dates are less. -/
def compare (a b : Date) : Ordering :=
  ((Ord.compare a.year b.year).then (Ord.compare a.month b.month)).then (Ord.compare a.day b.day)

/-- The year in at least four digits; outside the years 0 to 9999 with its sign. -/
def renderYear (year : Int) : List Char :=
  let digits := Decimal.padded 4 year.natAbs
  if year < 0 then '-' :: digits else if year ≤ 9999 then digits else '+' :: digits

/-- The text of a date: year, month and day with hyphens between. -/
def render (d : Date) : List Char :=
  renderYear d.year ++ '-' :: Decimal.padded 2 d.month ++ '-' :: Decimal.padded 2 d.day

end Date

end StepLedger.Calendar

import StepLedger.Proofs.Calendar.Reading

/-!
# The form of a written time

A `Stamp` is a time in the form of RFC 3339, cut into its parts. `Instant.stamp` is that of an instant:
universal time, two digits for each part of the date and the time but the year, and a fraction of a
second in none, three, six or nine digits (`Instant.wellFormed_stamp`). Its text is the text of the
instant (`Instant.text_stamp`).
-/

namespace StepLedger.Calendar

open Decimal

/-- A text of so many decimal digits. -/
def IsDigits (count : Nat) (text : List Char) : Prop :=
  text.length = count ∧ ∀ c ∈ text, c.isDigit = true

/-- A time in universal time, in its parts. -/
structure Stamp where
  year : List Char
  month : List Char
  day : List Char
  hour : List Char
  minute : List Char
  second : List Char
  fraction : List Char

namespace Stamp

/-- The point and the digits behind it; nothing if there are none. -/
def pointed : List Char → List Char
  | [] => []
  | digits => '.' :: digits

/-- The parts with the marks between them. -/
def text (s : Stamp) : String :=
  String.ofList (s.year ++ '-' :: (s.month ++ '-' :: (s.day ++ 'T' :: (s.hour ++ ':' ::
    (s.minute ++ ':' :: (s.second ++ (pointed s.fraction ++ ['Z'])))))))

/-- Each part has the digits that RFC 3339 gives it. A year of more than four digits and one before the
year 0 stand behind a sign. -/
structure WellFormed (s : Stamp) : Prop where
  year : IsDigits 4 s.year ∨ ∃ sign digits count, s.year = sign :: digits ∧
    (sign = '-' ∨ sign = '+') ∧ 4 ≤ count ∧ IsDigits count digits
  month : IsDigits 2 s.month
  day : IsDigits 2 s.day
  hour : IsDigits 2 s.hour
  minute : IsDigits 2 s.minute
  second : IsDigits 2 s.second
  fraction : ∃ count, (count = 0 ∨ count = 3 ∨ count = 6 ∨ count = 9) ∧ IsDigits count s.fraction

end Stamp

/-! ## Digits -/

theorem isDigits_padded {width n : Nat} (hwidth : 0 < width) (h : n < 10 ^ width) :
    IsDigits width (padded width n) :=
  ⟨length_padded hwidth h, fun _ => isDigit_padded⟩

theorem le_length_padded (width n : Nat) : width ≤ (padded width n).length := by
  simp only [padded, List.length_append, List.length_replicate]
  omega

/-! ## Years and fractions -/

theorem Date.isDigits_renderYear {year : Int} (h : 0 ≤ year ∧ year ≤ 9999) :
    IsDigits 4 (renderYear year) := by
  rw [renderYear, if_neg (by omega), if_pos h.2]
  exact isDigits_padded (by decide) (by omega)

theorem Date.signed_renderYear {year : Int} (h : ¬ (0 ≤ year ∧ year ≤ 9999)) :
    ∃ sign digits count, renderYear year = sign :: digits ∧ (sign = '-' ∨ sign = '+') ∧
      4 ≤ count ∧ IsDigits count digits := by
  have hdigits : ∀ c ∈ padded 4 year.natAbs, c.isDigit = true := fun _ => isDigit_padded
  have hwide := le_length_padded 4 year.natAbs
  by_cases hneg : year < 0
  · refine ⟨'-', _, _, ?_, .inl rfl, hwide, rfl, hdigits⟩
    rw [renderYear, if_pos hneg]
  · refine ⟨'+', _, _, ?_, .inr rfl, hwide, rfl, hdigits⟩
    rw [renderYear, if_neg hneg, if_neg (by omega)]

namespace Instant

/-- The digits of a fraction of a second, without the point. -/
def fractionDigits (nanosecond : Nat) : List Char := (renderFraction nanosecond).drop 1

theorem isDigits_fractionDigits {nanosecond : Nat} (h : nanosecond < 1000000000) :
    ∃ count, (count = 0 ∨ count = 3 ∨ count = 6 ∨ count = 9) ∧
      IsDigits count (fractionDigits nanosecond) := by
  unfold fractionDigits renderFraction
  by_cases hzero : nanosecond = 0
  · rw [if_pos hzero]
    exact ⟨0, .inl rfl, rfl, nofun⟩
  · rw [if_neg hzero]
    by_cases hmilli : nanosecond % 1000000 = 0
    · rw [if_pos hmilli]
      exact ⟨3, .inr (.inl rfl), isDigits_padded (by decide) (by omega)⟩
    · rw [if_neg hmilli]
      by_cases hmicro : nanosecond % 1000 = 0
      · rw [if_pos hmicro]
        exact ⟨6, .inr (.inr (.inl rfl)), isDigits_padded (by decide) (by omega)⟩
      · rw [if_neg hmicro]
        exact ⟨9, .inr (.inr (.inr rfl)), isDigits_padded (by decide) (by omega)⟩

theorem pointed_padded (width n : Nat) : Stamp.pointed (padded width n) = '.' :: padded width n := by
  rw [Stamp.pointed]
  exact padded_ne_nil width n

theorem pointed_fractionDigits (nanosecond : Nat) :
    Stamp.pointed (fractionDigits nanosecond) = renderFraction nanosecond := by
  unfold fractionDigits renderFraction
  split
  · rfl
  · split
    · exact pointed_padded _ _
    · split
      · exact pointed_padded _ _
      · exact pointed_padded _ _

/-! ## Instants -/

/-- An instant in its parts. A leap second is the second 60. -/
def stamp (i : Instant) : Stamp where
  year := Date.renderYear i.date.year
  month := padded 2 i.date.month
  day := padded 2 i.date.day
  hour := padded 2 (i.second / 3600)
  minute := padded 2 (i.second / 60 % 60)
  second := padded 2 (i.second % 60 + i.nanosecond / 1000000000)
  fraction := fractionDigits (i.nanosecond % 1000000000)

theorem text_stamp (i : Instant) : i.stamp.text = i.text := by
  rw [Stamp.text, text, render_eq]
  simp only [stamp, pointed_fractionDigits]

/-- The year is written as RFC 3339 has it, unless it needs a sign. -/
theorem isDigits_year_stamp_iff {i : Instant} :
    IsDigits 4 i.stamp.year ↔ 0 ≤ i.date.year ∧ i.date.year ≤ 9999 := by
  refine ⟨fun h => Decidable.byContradiction fun hout => ?_, Date.isDigits_renderYear⟩
  obtain ⟨sign, digits, _, hyear, hsign, -⟩ := Date.signed_renderYear hout
  rw [stamp, hyear] at h
  have hdigit : sign.isDigit = true := h.2 sign List.mem_cons_self
  obtain rfl | rfl := hsign <;> exact absurd hdigit (by decide)

theorem wellFormed_stamp (i : Instant) : i.stamp.WellFormed := by
  have hday : i.date.day < 100 := by
    have hlast := i.date.day_mem.2
    unfold daysInMonth at hlast
    split at hlast
    · split at hlast <;> omega
    · split at hlast <;> omega
  have hmonth := i.date.month_mem.2
  have hsecond := i.second_lt
  have hnanosecond := i.nanosecond_lt
  constructor
  case year =>
    by_cases h : 0 ≤ i.date.year ∧ i.date.year ≤ 9999
    · exact .inl (isDigits_year_stamp_iff.2 h)
    · exact .inr (Date.signed_renderYear h)
  case month => exact isDigits_padded (by decide) (by omega)
  case day => exact isDigits_padded (by decide) hday
  case hour => exact isDigits_padded (by decide) (by omega)
  case minute => exact isDigits_padded (by decide) (by omega)
  case second => exact isDigits_padded (by decide) (by omega)
  case fraction => exact isDigits_fractionDigits (by omega)

end Instant

end StepLedger.Calendar

import StepLedger.Calendar.Instant

/-!
# The order of dates and instants

`Date.compare` and `Instant.compare` compare part by part, the larger part first. So each is a linear
order (`Std.TransOrd`), and only what is the same is neither earlier nor later (`Std.LawfulEqOrd`).
-/

namespace StepLedger.Calendar

instance : Ord Date := ⟨Date.compare⟩

instance : Std.TransOrd Date :=
  inferInstanceAs (Std.TransCmp (compareLex (compareLex (compareOn Date.year)
    (compareOn Date.month)) (compareOn Date.day)))

instance : Std.LawfulEqOrd Date where
  eq_of_compare {a b} h := by
    obtain ⟨hmonth, hday⟩ := Ordering.then_eq_eq.1 h
    obtain ⟨hyear, hmonth⟩ := Ordering.then_eq_eq.1 hmonth
    cases a
    cases b
    cases Std.compare_eq_iff_eq.1 hyear
    cases Std.compare_eq_iff_eq.1 hmonth
    cases Std.compare_eq_iff_eq.1 hday
    rfl

instance : Ord Instant := ⟨Instant.compare⟩

instance : Std.TransOrd Instant :=
  inferInstanceAs (Std.TransCmp (compareLex (compareLex (compareOn Instant.date)
    (compareOn Instant.second)) (compareOn Instant.nanosecond)))

instance : Std.LawfulEqOrd Instant where
  eq_of_compare {a b} h := by
    obtain ⟨hsecond, hnanosecond⟩ := Ordering.then_eq_eq.1 h
    obtain ⟨hdate, hsecond⟩ := Ordering.then_eq_eq.1 hsecond
    have hdate : a.date = b.date := Std.LawfulEqOrd.eq_of_compare hdate
    cases a
    cases b
    cases hdate
    cases Std.compare_eq_iff_eq.1 hsecond
    cases Std.compare_eq_iff_eq.1 hnanosecond
    rfl

end StepLedger.Calendar

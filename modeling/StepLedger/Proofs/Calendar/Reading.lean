import StepLedger.Calendar.Reader
import StepLedger.Proofs.Calendar.Carried
import StepLedger.Proofs.Decimal
import StepLedger.Proofs.Except

/-!
# Times read back

The text of an instant reads back as that instant with its nanoseconds carried
(`Instant.ofText_text`), for every year of the calendar, fractions of every length and leap seconds.
Each part of the text is read by the part of the reader that is made for it and leaves what follows.
-/

namespace StepLedger.Calendar

open Decimal

/-! ## Parts of the text -/

namespace Reader

theorem isBlank_of_isDigit {c : Char} (h : c.isDigit = true) : Text.isBlank c = false := by
  simp only [Char.isDigit, Bool.and_eq_true, decide_eq_true_eq] at h
  obtain ⟨hl, hu⟩ := h
  have h0 : 48 ≤ c.toNat := hl
  have h9 : c.toNat ≤ 57 := hu
  simp only [Text.isBlank, Bool.or_eq_false_iff, Bool.and_eq_false_iff, decide_eq_false_iff_not]
  omega

/-- A text that begins with a character that is not blank has no white space in front. -/
theorem trimStart_cons {c : Char} (h : Text.isBlank c = false) (rest : List Char) :
    Text.trimStart (c :: rest) = c :: rest := by simp [Text.trimStart, h]

theorem trimStart_digits {digits : List Char} (hd : ∀ c ∈ digits, c.isDigit = true)
    (hne : digits ≠ []) (rest : List Char) :
    Text.trimStart (digits ++ rest) = digits ++ rest := by
  cases digits with
  | nil => exact absurd rfl hne
  | cons c digits => exact trimStart_cons (isBlank_of_isDigit (hd c List.mem_cons_self)) _

/-- A run of digits is read up to its end, if it is as wide as may be or no digit follows. -/
theorem number_append {digits : List Char} {width : Nat} {rest : List Char}
    (hd : ∀ c ∈ digits, c.isDigit = true) (hne : digits ≠ []) (hwidth : digits.length ≤ width)
    (hend : digits.length = width ∨ ∀ c ∈ rest.head?, c.isDigit = false)
    (hlt : toNat digits < 9223372036854775808) :
    number width (digits ++ rest) = .ok (toNat digits, rest) := by
  have htake : ((digits ++ rest).take width).takeWhile Char.isDigit = digits := by
    rw [List.take_append, List.take_of_length_le hwidth, List.takeWhile_append_of_pos hd]
    rcases hend with heq | hstop
    · simp [heq]
    · cases rest with
      | nil => simp
      | cons c rest =>
        have hc := hstop c rfl
        cases width - digits.length <;> simp [hc]
  have htext : digits ++ rest ≠ [] := fun h => hne (List.append_eq_nil_iff.1 h).1
  rw [number.eq_def]
  split
  · next h => exact absurd h htext
  · rw [htake]
    simp [hne, hlt]

theorem literal_cons {c : Char} (h : Text.isBlank c = false) (rest : List Char) :
    literal c (c :: rest) = .ok rest := by
  rw [literal, trimStart_cons h]
  simp

/-- Two digits are read as a number of two digits. -/
theorem within_padded {lower upper n : Nat} (hl : lower ≤ n) (hu : n ≤ upper) (hn : n < 100)
    (rest : List Char) : within lower upper (padded 2 n ++ rest) = .ok (n, rest) := by
  have hlen : (padded 2 n).length = 2 := length_padded (by decide) hn
  have hnumber : number 2 (padded 2 n ++ rest) = .ok (toNat (padded 2 n), rest) :=
    number_append (fun c => isDigit_padded) (padded_ne_nil 2 n) (Nat.le_of_eq hlen) (.inl hlen)
      (by rw [toNat_padded]; omega)
  rw [within, trimStart_digits (fun c => isDigit_padded) (padded_ne_nil 2 n), hnumber,
    toNat_padded]
  simp [hl, hu]
  rfl

theorem word_eq_ok {n : Int} (h : -2147483648 ≤ n ∧ n < 2147483648) (text : List Char) :
    word n text = .ok (n, text) := if_pos h

theorem signed_minus (text : List Char) : year.signed ('-' :: text) =
    (number text.length text >>= fun read => word (-(read.1 : Int)) read.2) := rfl

theorem signed_plus (text : List Char) : year.signed ('+' :: text) =
    (number text.length text >>= fun read => word read.1 read.2) := rfl

theorem signed_digits {digits : List Char} (hd : ∀ c ∈ digits, c.isDigit = true)
    (hne : digits ≠ []) (rest : List Char) : year.signed (digits ++ rest) =
      (number 4 (digits ++ rest) >>= fun read => word read.1 read.2) := by
  have hhead : ∀ c text, digits ++ rest = c :: text → c.isDigit = true := by
    intro c text htext
    cases digits with
    | nil => exact absurd rfl hne
    | cons d digits => cases htext; exact hd c List.mem_cons_self
  rw [year.signed.eq_def]
  split
  · next text htext => exact absurd (hhead _ _ htext) (by decide)
  · next text htext => exact absurd (hhead _ _ htext) (by decide)
  · rfl

/-- A year is read up to the hyphen behind it. -/
theorem year_renderYear {y : Int} (hy : firstYear ≤ y ∧ y ≤ lastYear) (rest : List Char) :
    year (Date.renderYear y ++ '-' :: rest) = .ok (y, '-' :: rest) := by
  have habs : y.natAbs < 300000 := by
    simp only [firstYear, lastYear] at hy
    omega
  have hhyphen : ∀ c ∈ ('-' :: rest).head?, c.isDigit = false := by
    intro c hc
    cases hc
    rfl
  have hread : ∀ width, (padded 4 y.natAbs).length ≤ width →
      ((padded 4 y.natAbs).length = width ∨ ∀ c ∈ ('-' :: rest).head?, c.isDigit = false) →
      number width (padded 4 y.natAbs ++ '-' :: rest) = .ok (y.natAbs, '-' :: rest) := by
    intro width hwidth hend
    have h := number_append (fun c => isDigit_padded) (padded_ne_nil 4 y.natAbs) hwidth hend
      (by rw [toNat_padded]; omega)
    rwa [toNat_padded] at h
  have hsigned := hread (padded 4 y.natAbs ++ '-' :: rest).length (by simp) (.inr hhyphen)
  rw [year]
  unfold Date.renderYear
  by_cases hneg : y < 0
  · have hy : -(y.natAbs : Int) = y := by omega
    rw [if_pos hneg, List.cons_append, trimStart_cons (by decide), signed_minus, hsigned,
      Except.ok_bind, hy]
    exact word_eq_ok (by omega) _
  · have hy : (y.natAbs : Int) = y := by omega
    rw [if_neg hneg]
    by_cases hwide : y ≤ 9999
    · have hlen : (padded 4 y.natAbs).length = 4 := length_padded (by decide) (by omega)
      rw [if_pos hwide, trimStart_digits (fun c => isDigit_padded) (padded_ne_nil 4 _),
        signed_digits (fun c => isDigit_padded) (padded_ne_nil 4 _),
        hread 4 (Nat.le_of_eq hlen) (.inl hlen), Except.ok_bind, hy]
      exact word_eq_ok (by omega) _
    · rw [if_neg hwide, List.cons_append, trimStart_cons (by decide), signed_plus, hsigned,
        Except.ok_bind, hy]
      exact word_eq_ok (by omega) _

/-- Digits behind the point are read as that part of a second. -/
theorem fraction_padded {width n : Nat} (hwidth : 0 < width ∧ width ≤ 9) (hn : n < 10 ^ width) :
    fraction ('.' :: padded width n ++ ['Z']) = .ok (n * 10 ^ (9 - width), ['Z']) := by
  have hlen : (padded width n).length = width := length_padded hwidth.1 hn
  have hlt : n < 10 ^ 9 := Nat.lt_of_lt_of_le hn (Nat.pow_le_pow_right (by decide) hwidth.2)
  have hnumber : number 9 (padded width n ++ ['Z']) = .ok (toNat (padded width n), ['Z']) :=
    number_append (fun c => isDigit_padded) (padded_ne_nil width n) (by omega) (.inr (by simp))
      (by rw [toNat_padded]; omega)
  rw [List.cons_append, fraction, hnumber, Except.ok_bind]
  show Except.ok (toNat (padded width n) * Nat.pow 10 (9 - ((padded width n ++ ['Z']).length - 1)),
    _) = _
  rw [toNat_padded, List.length_append, hlen, List.length_singleton, Nat.add_sub_cancel]
  rfl

/-- The fraction of a second is read back. -/
theorem fraction_renderFraction {nanosecond : Nat} (h : nanosecond < 1000000000) :
    fraction (Instant.renderFraction nanosecond ++ ['Z']) = .ok (nanosecond, ['Z']) := by
  unfold Instant.renderFraction
  by_cases hzero : nanosecond = 0
  · rw [if_pos hzero, hzero]
    rfl
  · rw [if_neg hzero]
    by_cases hmilli : nanosecond % 1000000 = 0
    · rw [if_pos hmilli, fraction_padded (by decide) (by omega)]
      congr 2
      omega
    · rw [if_neg hmilli]
      by_cases hmicro : nanosecond % 1000 = 0
      · rw [if_pos hmicro, fraction_padded (by decide) (by omega)]
        congr 2
        omega
      · rw [if_neg hmicro, fraction_padded (by decide) (by omega)]
        congr 2
        omega

theorem offset_zulu : offset (Text.trimStart ['Z']) = .ok (0, []) := rfl

end Reader

/-! ## The whole text -/

theorem Date.ofNumbers?_self (d : Date) : ofNumbers? d.year d.month d.day = some d := by
  simp [ofNumbers?, d.year_mem, d.month_mem, d.day_mem]

namespace Instant

/-- A clock in universal time shows the instant itself. -/
theorem ofLocal?_zero (i : Instant) : ofLocal? i.date i.second i.nanosecond 0 = some i := by
  have hs := i.second_lt
  have htotal : (i.second : Int) - 60 * 0 = i.second := by omega
  have hutc : ((i.second : Int) % 86400).toNat = i.second := by omega
  have hday : ¬ (i.second : Int) < 0 ∧ ¬ (86400 : Int) ≤ i.second := by omega
  simp only [ofLocal?, htotal, hutc, if_neg hday.1, if_neg hday.2, dif_pos i.nanosecond_lt,
    Option.map_some]

theorem render_eq (i : Instant) : i.render = Date.renderYear i.date.year ++
    '-' :: (padded 2 i.date.month ++ '-' :: (padded 2 i.date.day ++
    'T' :: (padded 2 (i.second / 3600) ++ ':' :: (padded 2 (i.second / 60 % 60) ++
    ':' :: (padded 2 (i.second % 60 + i.nanosecond / 1000000000) ++
      (renderFraction (i.nanosecond % 1000000000) ++ ['Z'])))))) := by
  simp only [render, Date.render, List.append_assoc, List.cons_append]

/-- The numbers that are written denote the instant. -/
theorem ofNumbers_eq {i : Instant} (h : i.Proper) :
    ofNumbers i.date.year i.date.month i.date.day (i.second / 3600) (i.second / 60 % 60)
      (i.second % 60 + i.nanosecond / 1000000000) (i.nanosecond % 1000000000) 0 = .ok i := by
  have hs := i.second_lt
  have hn := i.nanosecond_lt
  have hleap : 1000000000 ≤ i.nanosecond → i.second % 60 = 59 := h
  have hsecond : i.second / 3600 * 3600 + i.second / 60 % 60 * 60 +
      (i.second % 60 + i.nanosecond / 1000000000) -
      (i.second % 60 + i.nanosecond / 1000000000) / 60 = i.second := by omega
  have hnano : i.nanosecond % 1000000000 +
      (i.second % 60 + i.nanosecond / 1000000000) / 60 * 1000000000 = i.nanosecond := by omega
  rw [ofNumbers, Date.ofNumbers?_self]
  dsimp only
  rw [if_neg (by decide), hsecond, hnano, ofLocal?_zero]
  rfl

open Reader in
/-- What is written is read back, if nothing is carried. -/
theorem ofText_text_of_proper {i : Instant} (h : i.Proper) : ofText i.text = .ok i := by
  have hs := i.second_lt
  have hn := i.nanosecond_lt
  have hleap : 1000000000 ≤ i.nanosecond → i.second % 60 = 59 := h
  obtain ⟨hm, hm'⟩ := i.date.month_mem
  obtain ⟨hd, hd'⟩ := i.date.day_mem
  have hd31 : i.date.day ≤ 31 := by
    unfold daysInMonth at hd'
    split at hd'
    · split at hd' <;> omega
    · split at hd' <;> omega
  have hsep : ∀ rest, separator ('T' :: rest) = .ok rest := fun _ => rfl
  rw [ofText, text, String.toList_ofList, render_eq, year_renderYear i.date.year_mem, Except.ok_bind]
  dsimp only
  rw [literal_cons (by decide), Except.ok_bind, within_padded hm hm' (by omega), Except.ok_bind]
  dsimp only
  rw [literal_cons (by decide), Except.ok_bind, within_padded hd hd31 (by omega), Except.ok_bind]
  dsimp only
  rw [hsep, Except.ok_bind, within_padded (Nat.zero_le _) (by omega) (by omega), Except.ok_bind]
  dsimp only
  rw [literal_cons (by decide), Except.ok_bind,
    within_padded (Nat.zero_le _) (by omega) (by omega), Except.ok_bind]
  dsimp only
  rw [literal_cons (by decide), Except.ok_bind,
    within_padded (Nat.zero_le _) (by omega) (by omega), Except.ok_bind]
  dsimp only
  rw [fraction_renderFraction (by omega), Except.ok_bind]
  dsimp only
  rw [offset_zulu, Except.ok_bind]
  dsimp only
  rw [if_neg (by decide), ofNumbers_eq h]

/-- What is written is read back with its nanoseconds carried. -/
theorem ofText_text (i : Instant) : ofText i.text = .ok i.carried := by
  rw [← text_carried, ofText_text_of_proper i.proper_carried]

end Instant

end StepLedger.Calendar

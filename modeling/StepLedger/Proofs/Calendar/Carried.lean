import StepLedger.Calendar.Instant

/-!
# Nanoseconds that are carried

An instant may count `10 ^ 9` nanoseconds and more after any second, but only in the last second of a
minute these are written as a leap second. Elsewhere they are carried into the next second
(`Instant.carried`). That is the same time, counted otherwise (`Instant.sinceMidnight_carried`), and it
has the same text (`Instant.text_carried`); so of the two only the carried one can be read back.
-/

namespace StepLedger.Calendar.Instant

/-- How many nanoseconds after midnight it is. -/
def sinceMidnight (i : Instant) : Nat := i.second * 1000000000 + i.nanosecond

/-- There are nanoseconds of a leap second only in the last second of a minute. -/
def Proper (i : Instant) : Prop := 1000000000 ≤ i.nanosecond → i.second % 60 = 59
deriving Decidable

/-- The same time, with nanoseconds of a leap second that is none in the next second. -/
def carried (i : Instant) : Instant :=
  if h : i.Proper then i
  else { i with
    second := i.second + 1
    nanosecond := i.nanosecond - 1000000000
    second_mem := by
      have := i.second_lt
      rw [Proper, Classical.not_imp] at h
      omega
    nanosecond_mem := ⟨Nat.zero_le _, Nat.lt_of_le_of_lt (Nat.sub_le _ _) i.nanosecond_lt⟩ }

variable {i : Instant}

theorem carried_of_proper (h : i.Proper) : i.carried = i := dif_pos h

theorem second_carried (h : ¬ i.Proper) : i.carried.second = i.second + 1 := by
  rw [carried, dif_neg h]

theorem nanosecond_carried (h : ¬ i.Proper) : i.carried.nanosecond = i.nanosecond - 1000000000 := by
  rw [carried, dif_neg h]

@[simp] theorem date_carried (i : Instant) : i.carried.date = i.date := by
  unfold carried
  split <;> rfl

theorem proper_carried (i : Instant) : i.carried.Proper := by
  by_cases h : i.Proper
  · rwa [carried_of_proper h]
  · have := i.nanosecond_lt
    rw [Proper, nanosecond_carried h]
    omega

theorem carried_eq_self_iff : i.carried = i ↔ i.Proper :=
  ⟨fun h => h ▸ i.proper_carried, carried_of_proper⟩

@[simp] theorem carried_carried (i : Instant) : i.carried.carried = i.carried :=
  carried_of_proper i.proper_carried

/-- What is carried is not lost. -/
theorem sinceMidnight_carried (i : Instant) : i.carried.sinceMidnight = i.sinceMidnight := by
  by_cases h : i.Proper
  · rw [carried_of_proper h]
  · rw [sinceMidnight, sinceMidnight, second_carried h, nanosecond_carried h]
    rw [Proper, Classical.not_imp] at h
    omega

/-- Nanoseconds are written as if they had been carried. -/
theorem render_carried (i : Instant) : i.carried.render = i.render := by
  by_cases h : i.Proper
  · rw [carried_of_proper h]
  · have hn := i.nanosecond_lt
    have hleap : 1000000000 ≤ i.nanosecond ∧ i.second % 60 ≠ 59 := by
      rwa [Proper, Classical.not_imp] at h
    have hhour : (i.second + 1) / 3600 = i.second / 3600 := by omega
    have hminute : (i.second + 1) / 60 % 60 = i.second / 60 % 60 := by omega
    have hsecond : (i.second + 1) % 60 + (i.nanosecond - 1000000000) / 1000000000 =
        i.second % 60 + i.nanosecond / 1000000000 := by omega
    have hfraction : (i.nanosecond - 1000000000) % 1000000000 = i.nanosecond % 1000000000 := by omega
    rw [render, render, date_carried, second_carried h, nanosecond_carried h, hhour, hminute, hsecond,
      hfraction]

theorem text_carried (i : Instant) : i.carried.text = i.text := by
  rw [text, render_carried, text]

end StepLedger.Calendar.Instant

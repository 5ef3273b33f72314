import StepLedger.Json.Decode
import StepLedger.Proofs.Except
import StepLedger.Proofs.Json.Same

/-!
# Words and texts as JSON values

A machine word is read from the number that it is written as, and from no other value; likewise a
text. Words and texts are `Exact`: nothing equals them but they themselves.
-/

namespace StepLedger.Json.Value

/-! ## Texts -/

theorem toText_eq_ok_iff {value : Value} {s : String} :
    value.toText = .ok s ↔ value = .string s := by
  cases value <;> simp [toText]

/-! ## Words -/

theorem toIntWithin_eq_ok_iff {lower upper n : Int} {type : String} {value : Value} :
    value.toIntWithin lower upper type = .ok n ↔
      lower ≤ n ∧ n < upper ∧ ∃ hl hu, value = .number (.int n hl hu) := by
  unfold toIntWithin
  split
  · next m hl hu =>
    constructor
    · intro h
      split at h
      · next hm => cases h; exact ⟨hm.1, hm.2, hl, hu, rfl⟩
      · cases h
    · rintro ⟨h1, h2, _, _, heq⟩
      cases heq
      simp [h1, h2]
  · next hne =>
    constructor
    · intro h; cases h
    · rintro ⟨-, -, hl, hu, rfl⟩; exact absurd rfl (hne n hl hu)

theorem toInt64_ofInt64 (n : Int64) : (Value.number (.ofInt64 n)).toInt64 = .ok n := by
  have h : toIntWithin (-9223372036854775808) 9223372036854775808 "i64"
      (Value.number (.ofInt64 n)) = .ok n.toInt :=
    toIntWithin_eq_ok_iff.2 ⟨n.le_toInt, n.toInt_lt, _, _, rfl⟩
  rw [toInt64, h]
  simp [Except.map]

theorem toInt64_eq_ok_iff {value : Value} {n : Int64} :
    value.toInt64 = .ok n ↔ value = .number (.ofInt64 n) := by
  refine ⟨fun h => ?_, fun h => h ▸ toInt64_ofInt64 n⟩
  obtain ⟨m, hm, rfl⟩ := Except.map_eq_ok.1 h
  obtain ⟨hl, hu, _, _, rfl⟩ := toIntWithin_eq_ok_iff.1 hm
  simp [Number.ofInt64, Int64.toInt_ofInt_of_le hl hu]

theorem toInt32_ofInt32 (n : Int32) : (Value.number (.ofInt32 n)).toInt32 = .ok n := by
  have h : toIntWithin (-2147483648) 2147483648 "i32" (Value.number (.ofInt32 n)) = .ok n.toInt :=
    toIntWithin_eq_ok_iff.2 ⟨n.le_toInt, n.toInt_lt, _, _, rfl⟩
  rw [toInt32, h]
  simp [Except.map]

theorem toUInt32_ofUInt32 (n : UInt32) : (Value.number (.ofUInt32 n)).toUInt32 = .ok n := by
  have h : toIntWithin 0 4294967296 "u32" (Value.number (.ofUInt32 n)) = .ok n.toNat :=
    toIntWithin_eq_ok_iff.2
      ⟨Int.natCast_nonneg _, Int.ofNat_lt.2 n.toNat_lt, _, _, rfl⟩
  rw [toUInt32, h]
  simp [Except.map]

/-! ## Equality -/

theorem ofInt64_inj {m n : Int64} : Value.number (.ofInt64 m) = .number (.ofInt64 n) ↔ m = n := by
  simp [Number.ofInt64, Int64.toInt_inj]

theorem ofInt32_inj {m n : Int32} : Value.number (.ofInt32 m) = .number (.ofInt32 n) ↔ m = n := by
  simp [Number.ofInt32, Int32.toInt_inj]

end StepLedger.Json.Value

namespace StepLedger.Json

/-- Only the value itself equals it, and it does not stand for a missing one. -/
structure Exact (json : Json) : Prop where
  eq_of_same : ∀ value : Value, value.same json.value = true → value = json.value
  notNull : json.value.isNull = false

theorem exact_string (s : String) : (string s).Exact :=
  ⟨fun _ h => Value.same_string_iff.1 h, rfl⟩

theorem exact_ofInt64 (n : Int64) : (ofInt64 n).Exact := ⟨fun _ h => Value.same_int_iff.1 h, rfl⟩

theorem exact_ofInt32 (n : Int32) : (ofInt32 n).Exact := ⟨fun _ h => Value.same_int_iff.1 h, rfl⟩

end StepLedger.Json

import StepLedger.Proofs.Binary64.Shortest
import StepLedger.Proofs.Json.Splitting

/-!
# The numerals of numbers

What is written for a binary64 number is a numeral of the JSON grammar that denotes its shortest
decimal, with its sign and with a fraction or an exponent (`Number.exists_numeral_renderFloat`). So
two numbers have one text only if they are one number (`Number.render_inj`): the numeral of a whole
number has neither fraction nor exponent, and a zero keeps its sign.
-/

namespace StepLedger.Json

namespace Numeral

/-- The magnitude that a numeral denotes. -/
def magnitude (n : Numeral) : ℚ :=
  Decimal.toNat (n.whole ++ n.fraction.getD []) *
    10 ^ (n.exponent.getD 0 - ((n.fraction.getD []).length : Int))

/-- The text after the sign is a numeral of this magnitude with a fraction or an exponent. -/
def Spells (text : List Char) (magnitude : ℚ) : Prop :=
  ∀ negative, ∃ n : Numeral, ofMagnitude? negative text = some n ∧ n.negative = negative ∧
    n.magnitude = magnitude ∧ (n.fraction.isSome = true ∨ n.exponent.isSome = true)

theorem exponent?_signed (n : Int) :
    exponent? ((if n < 0 then '-' else '+') :: Decimal.ofNat n.natAbs) = some n := by
  have hread : exponent?.unsigned? (Decimal.ofNat n.natAbs) = some (n.natAbs : Int) := by
    rw [exponent?.unsigned?, digits?_ofNat]
    simp only [Decimal.toNat_ofNat]
  split
  · next hneg =>
    show (exponent?.unsigned? _).map (- ·) = some n
    rw [hread, Option.map_some, Option.some.injEq]
    omega
  · next hpos =>
    show exponent?.unsigned? _ = some n
    rw [hread, Option.some.injEq]
    omega

section Spelling

variable (whole fraction : List Char) (hwhole : ∀ c ∈ whole, c.isDigit = true) (hne : whole ≠ [])
  (hzero : whole.length = 1 ∨ whole.head? ≠ some '0')

include hwhole hne hzero

theorem spells_fraction (hfraction : ∀ c ∈ fraction, c.isDigit = true) (hne' : fraction ≠ []) :
    Spells (whole ++ '.' :: fraction)
      (Decimal.toNat (whole ++ fraction) * 10 ^ (-(fraction.length : Int))) := by
  intro negative
  refine ⟨⟨negative, whole, some fraction, none⟩, ?_, rfl, ?_, .inl rfl⟩
  · rw [ofMagnitude?_append hwhole hne hzero (by rintro c ⟨⟩; rfl), tail?,
      digits?_of_forall hne' hfraction]
  · simp [magnitude]

theorem spells_exponent (n : Int) :
    Spells (whole ++ 'e' :: (if n < 0 then '-' else '+') :: Decimal.ofNat n.natAbs)
      (Decimal.toNat whole * 10 ^ n) := by
  intro negative
  refine ⟨⟨negative, whole, none, some n⟩, ?_, rfl, ?_, .inr rfl⟩
  · rw [ofMagnitude?_append hwhole hne hzero (by rintro c ⟨⟩; rfl), tail?]
    · rw [if_pos (.inl rfl), exponent?_signed]
      rfl
    · simp
  · simp [magnitude]

theorem spells_fraction_exponent (hfraction : ∀ c ∈ fraction, c.isDigit = true)
    (hne' : fraction ≠ []) (n : Int) :
    Spells (whole ++ '.' :: fraction ++ 'e' :: (if n < 0 then '-' else '+') ::
      Decimal.ofNat n.natAbs)
      (Decimal.toNat (whole ++ fraction) * 10 ^ (n - fraction.length)) := by
  intro negative
  refine ⟨⟨negative, whole, some fraction, some n⟩, ?_, rfl, ?_, .inl rfl⟩
  · rw [List.append_assoc, List.cons_append,
      ofMagnitude?_append hwhole hne hzero (by rintro c ⟨⟩; rfl), tail?,
      digits?_append hne' hfraction (by rintro c ⟨⟩; rfl)]
    simp only [true_or, if_true]
    rw [exponent?_signed]
    rfl
  · simp [magnitude]

end Spelling

end Numeral

namespace Number

open Numeral (Spells)

variable {d : Decimal.Scientific}

theorem isDigit_of_mem_zero {c : Char} (h : c ∈ ['0']) : c.isDigit = true :=
  Decimal.isDigit_of_mem_replicate (k := 1) h

section Layouts

variable {digits : List Char} (hdigits : ∀ c ∈ digits, c.isDigit = true)

include hdigits

theorem spells_zeros (hne : digits ≠ []) (k : Nat) :
    Spells ('0' :: '.' :: List.replicate k '0' ++ digits)
      (Decimal.toNat digits * 10 ^ (-((k : Int) + digits.length))) := by
  have hfraction : ∀ c ∈ List.replicate k '0' ++ digits, c.isDigit = true :=
    List.forall_mem_append.2 ⟨fun _ => Decimal.isDigit_of_mem_replicate, hdigits⟩
  have hspells := Numeral.spells_fraction ['0'] _ (fun _ => isDigit_of_mem_zero) (List.cons_ne_nil _ _)
    (.inl rfl) hfraction (List.append_ne_nil_of_right_ne_nil _ hne)
  have hvalue : Decimal.toNat (['0'] ++ (List.replicate k '0' ++ digits)) = Decimal.toNat digits :=
    Decimal.toNat_replicate_zero_append (k + 1) digits
  rw [hvalue, List.length_append, List.length_replicate, Nat.cast_add] at hspells
  exact hspells

variable (hhead : digits.head? ≠ some '0')

include hhead

theorem spells_whole (hne : digits ≠ []) (k : Nat) :
    Spells (digits ++ List.replicate k '0' ++ ['.', '0']) (Decimal.toNat digits * 10 ^ (k : Int)) := by
  have hwhole : ∀ c ∈ digits ++ List.replicate k '0', c.isDigit = true :=
    List.forall_mem_append.2 ⟨hdigits, fun _ => Decimal.isDigit_of_mem_replicate⟩
  have hzero : (digits ++ List.replicate k '0').head? ≠ some '0' := by
    rwa [List.head?_append, Option.or_of_isSome (List.isSome_head?.2 hne)]
  have hspells := Numeral.spells_fraction _ ['0'] hwhole
    (List.append_ne_nil_of_left_ne_nil hne _) (.inr hzero) (fun _ => isDigit_of_mem_zero)
    (List.cons_ne_nil _ _)
  have hlast : Decimal.toNat (digits ++ List.replicate k '0' ++ ['0']) =
      Decimal.toNat digits * 10 ^ (k + 1) := by
    rw [List.append_assoc, ← List.replicate_succ', Decimal.toNat_append_replicate_zero]
  have hvalue : (Decimal.toNat (digits ++ List.replicate k '0' ++ ['0']) : ℚ) *
      10 ^ (-((['0'] : List Char).length : Int)) = Decimal.toNat digits * 10 ^ (k : Int) := by
    rw [hlast, zpow_natCast]
    push_cast
    norm_num
    ring
  rwa [hvalue] at hspells

theorem spells_point {k : Nat} (hpos : 0 < k) (hlt : k < digits.length) :
    Spells (digits.take k ++ '.' :: digits.drop k)
      (Decimal.toNat digits * 10 ^ ((k : Int) - digits.length)) := by
  have hwhole : ∀ c ∈ digits.take k, c.isDigit = true :=
    fun c hc => hdigits c (List.mem_of_mem_take hc)
  have hfraction : ∀ c ∈ digits.drop k, c.isDigit = true :=
    fun c hc => hdigits c (List.mem_of_mem_drop hc)
  have hne : digits.take k ≠ [] := by
    rw [ne_eq, List.take_eq_nil_iff]
    rintro (rfl | rfl)
    · exact Nat.lt_irrefl 0 hpos
    · exact Nat.not_lt_zero k hlt
  have hzero : (digits.take k).head? ≠ some '0' := by
    rwa [List.head?_take, if_neg (Nat.ne_of_gt hpos)]
  have hne' : digits.drop k ≠ [] := by
    rw [ne_eq, List.drop_eq_nil_iff]
    omega
  have hspells := Numeral.spells_fraction _ _ hwhole hne (.inr hzero) hfraction hne'
  rw [List.take_append_drop, List.length_drop, Nat.cast_sub hlt.le, neg_sub] at hspells
  exact hspells

end Layouts

/-- Wherever the point stands, the numeral that is written denotes the decimal. -/
theorem spells_renderScientific (h : d.digits ≠ 0) : Spells (renderScientific d) d.value := by
  have hdigits : ∀ c ∈ Decimal.ofNat d.digits, c.isDigit = true := fun _ => Decimal.isDigit_ofNat
  have hne : Decimal.ofNat d.digits ≠ [] := Decimal.ofNat_ne_nil _
  have hhead : (Decimal.ofNat d.digits).head? ≠ some '0' := Decimal.head?_ofNat h
  have hvalue : Decimal.toNat (Decimal.ofNat d.digits) = d.digits := Decimal.toNat_ofNat _
  simp only [renderScientific, Decimal.Scientific.value]
  generalize Decimal.ofNat d.digits = digits at *
  generalize d.exponent = exponent
  generalize hleading : (digits.length : Int) + exponent - 1 = leading
  have hlength : 0 < digits.length := List.length_pos_iff.2 hne
  rw [← hvalue]
  -- Without exponent the point stands behind the digits, among them or in front of them.
  split
  · split
    · next hexponent =>
      have hspells := spells_whole hdigits hhead hne exponent.toNat
      rwa [Int.toNat_of_nonneg hexponent] at hspells
    · split
      · next hle =>
        have hspells := spells_point (k := leading.toNat + 1) hdigits hhead (by omega) (by omega)
        rwa [show ((leading.toNat + 1 : ℕ) : Int) - digits.length = exponent by omega] at hspells
      · have hspells := spells_zeros hdigits hne (-leading - 1).toNat
        rwa [show -(((-leading - 1).toNat : Int) + digits.length) = exponent by omega] at hspells
  · have hmark : ∀ text : List Char, (if leading < 0 then ['e', '-'] else ['e', '+']) ++ text =
        'e' :: (if leading < 0 then '-' else '+') :: text := fun text => by split <;> rfl
    rw [List.append_assoc, hmark]
    split
    · next hone =>
      have hspells := Numeral.spells_exponent _ hdigits hne (.inl hone) leading
      rw [List.take_of_length_le hone.le, List.append_nil]
      rwa [show leading = exponent by omega] at hspells ⊢
    · next hmany =>
      have hspells := Numeral.spells_fraction_exponent (digits.take 1) (digits.drop 1)
        (fun c hc => hdigits c (List.mem_of_mem_take hc))
        (by simpa using hne) (.inl (List.length_take_of_le hlength))
        (fun c hc => hdigits c (List.mem_of_mem_drop hc)) (by rw [ne_eq, List.drop_eq_nil_iff]; omega)
        leading
      rw [List.take_append_drop, List.length_drop,
        show leading - ((digits.length - 1 : ℕ) : Int) = exponent by omega] at hspells
      exact hspells

/-- The magnitude that is written for a binary64 number. -/
def written (x : Binary64) : ℚ := if x.isZero then 0 else x.shortest.value

theorem spells_magnitude (x : Binary64) :
    Spells (if x.isZero then ['0', '.', '0'] else renderScientific x.shortest) (written x) := by
  rw [written]
  split
  · have hzeros : Decimal.toNat (['0'] ++ ['0']) = 0 := rfl
    have hspells := Numeral.spells_fraction ['0'] ['0'] (fun _ => isDigit_of_mem_zero)
      (List.cons_ne_nil _ _) (.inl rfl) (fun _ => isDigit_of_mem_zero) (List.cons_ne_nil _ _)
    rwa [hzeros, Nat.cast_zero, zero_mul] at hspells
  · next h =>
    exact spells_renderScientific (Binary64.digits_shortest_ne_zero (Bool.eq_false_iff.2 h))

/-- The text of a binary64 number is a numeral with a fraction or an exponent. -/
theorem exists_numeral_renderFloat (x : Binary64) :
    ∃ n : Numeral, Numeral.ofText? (renderFloat x) = some n ∧ n.negative = x.negative ∧
      n.magnitude = written x ∧ (n.fraction.isSome = true ∨ n.exponent.isSome = true) := by
  have hspells := spells_magnitude x
  simp only [renderFloat]
  generalize (if x.isZero then ['0', '.', '0'] else renderScientific x.shortest) = text at *
  obtain ⟨n, hn, hsign, hmagnitude, hkind⟩ := hspells x.negative
  refine ⟨n, ?_, hsign, hmagnitude, hkind⟩
  split
  · next hnegative => rw [Numeral.ofText?_cons_minus, ← hnegative, hn]
  · next hpositive =>
    have hhead : text.head? ≠ some '-' := by
      obtain ⟨-, c, cs, rfl, hc⟩ := Numeral.numberChars_of_ofMagnitude? hn
      rw [List.head?_cons, ne_eq, Option.some.injEq]
      rintro rfl
      exact absurd hc (by decide)
    rw [Numeral.ofText?_of_head?_ne hhead, ← Bool.eq_false_iff.2 hpositive, hn]

theorem written_inj {x y : Binary64} (h : written x = written y) :
    x.mantissa = y.mantissa ∧ x.scale = y.scale := by
  have hpositive : ∀ x : Binary64, x.isZero = false → x.shortest.value ≠ 0 := fun x hx => by
    have := Binary64.digits_shortest_ne_zero hx
    rw [Decimal.Scientific.value]
    positivity
  have hzero : ∀ x : Binary64, x.isZero = true → x.mantissa = 0 ∧ x.scale = 0 := fun x hx => by
    have hm : x.mantissa = 0 := of_decide_eq_true hx
    exact ⟨hm, x.normal.resolve_right (by omega)⟩
  simp only [written] at h
  split at h
  · next hx =>
    split at h
    · next hy => grind
    · next hy => exact absurd h.symm (hpositive y (Bool.eq_false_iff.2 hy))
  · next hx =>
    split at h
    · exact absurd h (hpositive x (Bool.eq_false_iff.2 hx))
    · next hy => exact Binary64.shortest_inj (Bool.eq_false_iff.2 hx) (Bool.eq_false_iff.2 hy) h

theorem renderFloat_inj {x y : Binary64} (h : renderFloat x = renderFloat y) : x = y := by
  obtain ⟨m, hm, hsign, hmagnitude, -⟩ := exists_numeral_renderFloat x
  obtain ⟨n, hn, hsign', hmagnitude', -⟩ := exists_numeral_renderFloat y
  obtain rfl : m = n := Option.some.inj (hm.symm.trans (h ▸ hn))
  obtain ⟨hmantissa, hscale⟩ := written_inj (hmagnitude.symm.trans hmagnitude')
  have hnegative : x.negative = y.negative := hsign.symm.trans hsign'
  cases x
  cases y
  simp_all

/-- The numeral of a whole number has neither fraction nor exponent. -/
theorem ofInt_ne_renderFloat (n : Int) (x : Binary64) : Decimal.ofInt n ≠ renderFloat x := by
  intro h
  obtain ⟨numeral, hnumeral, -, -, hkind⟩ := exists_numeral_renderFloat x
  rw [← h, Numeral.ofText?_ofInt] at hnumeral
  cases hnumeral
  rcases hkind with hkind | hkind <;> cases hkind

/-- Numbers with one text are one number. -/
theorem render_inj {m n : Number} (h : m.render = n.render) : m = n := by
  cases m with
  | int m =>
    cases n with
    | int n =>
      obtain rfl := Decimal.ofInt_inj h
      rfl
    | float x => exact absurd h (ofInt_ne_renderFloat m x)
  | float x =>
    cases n with
    | int n => exact absurd h.symm (ofInt_ne_renderFloat n x)
    | float y => rw [renderFloat_inj h]

/-- The text of a number consists of characters of numbers and begins with a digit or a sign. -/
theorem numberChars_render (n : Number) : (∀ c ∈ n.render, Token.isNumberChar c = true) ∧
    ∃ c cs, n.render = c :: cs ∧ (c.isDigit = true ∨ c = '-') := by
  cases n with
  | int n => exact Numeral.numberChars_of_ofText? (Numeral.ofText?_ofInt n)
  | float x =>
    obtain ⟨n, hn, -⟩ := exists_numeral_renderFloat x
    exact Numeral.numberChars_of_ofText? hn

end Number

end StepLedger.Json

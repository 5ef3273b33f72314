import Mathlib.Data.List.Forall2
import Mathlib.Data.List.TakeWhile
import StepLedger.Json.Token
import StepLedger.Json.Printer
import StepLedger.Proofs.Decimal

/-!
# Splitting what was written

`Value.tokens` are the tokens in the text of a value. Wherever the text of a value without binary64
numbers stands, it is split into them, and splitting goes on behind it (`Whole.split_render`). A
numeral consists of characters that may stand in numbers (`Numeral.numberChars_of_ofText?`), and it
ends only where the next character is none of them, so what follows a value has to begin with a comma
or the end of a container, if there is anything.
-/

namespace StepLedger.Json

namespace Value

/-! ## Values without binary64 numbers -/

mutual

/-- All numbers in the value are whole numbers. -/
def Whole : Value → Prop
  | .number (.float _) => False
  | .array items => WholeItems items
  | .object fields => WholeFields fields
  | _ => True

/-- All numbers in the items are whole numbers. -/
def WholeItems : List Value → Prop
  | [] => True
  | item :: items => item.Whole ∧ WholeItems items

/-- All numbers in the fields are whole numbers. -/
def WholeFields : List (String × Value) → Prop
  | [] => True
  | (_, value) :: fields => value.Whole ∧ WholeFields fields

end

theorem wholeItems_iff {items : List Value} : WholeItems items ↔ ∀ item ∈ items, item.Whole := by
  induction items with
  | nil => simp [WholeItems]
  | cons item items ih => simp [WholeItems, ih]

theorem wholeFields_iff {fields : List (String × Value)} :
    WholeFields fields ↔ ∀ field ∈ fields, field.2.Whole := by
  induction fields with
  | nil => simp [WholeFields]
  | cons field fields ih => obtain ⟨name, value⟩ := field; simp [WholeFields, ih]

/-! ## Tokens -/

mutual

/-- The tokens in the text of a value. -/
def tokens : Value → List Token
  | .null => [.null]
  | .bool b => [.bool b]
  | .number n => [.number (some n)]
  | .string s => [.string (some s)]
  | .array [] => [.openArray, .closeArray]
  | .array (item :: items) => .openArray :: item.tokens ++ itemTokens items
  | .object [] => [.openObject, .closeObject]
  | .object ((name, value) :: fields) =>
    .openObject :: .string (some name) :: .colon :: value.tokens ++ fieldTokens fields

/-- The tokens of an array after its first item. -/
def itemTokens : List Value → List Token
  | [] => [.closeArray]
  | item :: items => .comma :: item.tokens ++ itemTokens items

/-- The tokens of an object after its first field. -/
def fieldTokens : List (String × Value) → List Token
  | [] => [.closeObject]
  | (name, value) :: fields =>
    .comma :: .string (some name) :: .colon :: value.tokens ++ fieldTokens fields

end

end Value

/-! ## Numerals -/

namespace Numeral

open Token (isNumberChar)

/-- A run of digits ends where no digit follows. -/
theorem digits?_append {run rest : List Char} (hne : run ≠ [])
    (hrun : ∀ c ∈ run, c.isDigit = true) (hrest : ∀ c ∈ rest.head?, c.isDigit = false) :
    digits? (run ++ rest) = some (run, rest) := by
  have hnone : rest.takeWhile Char.isDigit = [] ∧ rest.dropWhile Char.isDigit = rest := by
    cases rest with
    | nil => exact ⟨rfl, rfl⟩
    | cons c rest =>
      have hc : ¬ c.isDigit = true := by rw [hrest c rfl]; decide
      exact ⟨List.takeWhile_cons_of_neg hc, List.dropWhile_cons_of_neg hc⟩
  rw [digits?, List.takeWhile_append_of_pos hrun, List.dropWhile_append_of_pos hrun, hnone.1, hnone.2,
    List.append_nil, if_neg (by rwa [List.isEmpty_iff])]

theorem digits?_of_forall {run : List Char} (hne : run ≠ []) (hrun : ∀ c ∈ run, c.isDigit = true) :
    digits? run = some (run, []) := by
  have hend : ∀ c ∈ ([] : List Char).head?, c.isDigit = false := fun _ hc => nomatch hc
  have h := digits?_append hne hrun hend
  rwa [List.append_nil] at h

theorem digits?_ofNat (n : Nat) : digits? (Decimal.ofNat n) = some (Decimal.ofNat n, []) :=
  digits?_of_forall (Decimal.ofNat_ne_nil n) fun _ => Decimal.isDigit_ofNat

theorem eq_append_of_digits? {text run rest : List Char} (h : digits? text = some (run, rest)) :
    text = run ++ rest ∧ run ≠ [] ∧ ∀ c ∈ run, c.isDigit = true := by
  rw [digits?] at h
  split at h
  · cases h
  · next hne =>
    rw [List.isEmpty_iff] at hne
    cases h
    exact ⟨List.takeWhile_append_dropWhile.symm, hne, fun c hc => List.mem_takeWhile_imp hc⟩

theorem isNumberChar_of_isDigit {c : Char} (h : c.isDigit = true) : isNumberChar c = true := by
  simp [isNumberChar, h]

theorem isNumberChar_of_unsigned? {text : List Char} {n : Int}
    (h : exponent?.unsigned? text = some n) : ∀ c ∈ text, isNumberChar c = true := by
  rw [exponent?.unsigned?] at h
  split at h
  · next run hdigits =>
    obtain ⟨htext, -, hrun⟩ := eq_append_of_digits? hdigits
    rw [List.append_nil] at htext
    exact htext ▸ fun c hc => isNumberChar_of_isDigit (hrun c hc)
  · cases h

theorem isNumberChar_of_exponent? {text : List Char} {n : Int} (h : exponent? text = some n) :
    ∀ c ∈ text, isNumberChar c = true := by
  unfold exponent? at h
  split at h
  · exact List.forall_mem_cons.2 ⟨rfl, isNumberChar_of_unsigned? h⟩
  · obtain ⟨n, h, -⟩ := Option.map_eq_some_iff.1 h
    exact List.forall_mem_cons.2 ⟨rfl, isNumberChar_of_unsigned? h⟩
  · exact isNumberChar_of_unsigned? h

theorem isNumberChar_of_mark {mark : Char} (h : mark = 'e' ∨ mark = 'E') :
    isNumberChar mark = true := by
  rcases h with rfl | rfl <;> rfl

theorem isNumberChar_of_tail? {negative : Bool} {whole text : List Char} {n : Numeral}
    (h : tail? negative whole text = some n) : ∀ c ∈ text, isNumberChar c = true := by
  unfold tail? at h
  split at h
  · exact fun c hc => nomatch hc
  · refine List.forall_mem_cons.2 ⟨rfl, ?_⟩
    split at h
    · next run hdigits =>
      obtain ⟨htext, -, hrun⟩ := eq_append_of_digits? hdigits
      rw [List.append_nil] at htext
      exact htext ▸ fun c hc => isNumberChar_of_isDigit (hrun c hc)
    · next run mark rest hdigits =>
      split at h
      · next hmark =>
        obtain ⟨exponent, hexponent, -⟩ := Option.map_eq_some_iff.1 h
        obtain ⟨rfl, -, hrun⟩ := eq_append_of_digits? hdigits
        refine List.forall_mem_append.2 ⟨fun c hc => isNumberChar_of_isDigit (hrun c hc), ?_⟩
        exact List.forall_mem_cons.2 ⟨isNumberChar_of_mark hmark, isNumberChar_of_exponent? hexponent⟩
      · cases h
    · cases h
  · split at h
    · next hmark =>
      obtain ⟨exponent, hexponent, -⟩ := Option.map_eq_some_iff.1 h
      exact List.forall_mem_cons.2 ⟨isNumberChar_of_mark hmark, isNumberChar_of_exponent? hexponent⟩
    · cases h

/-- Read what follows the sign. -/
def ofMagnitude? (negative : Bool) (text : List Char) : Option Numeral :=
  match digits? text with
  | some (whole, rest) =>
    if whole.length = 1 ∨ whole.head? ≠ some '0' then tail? negative whole rest else none
  | none => none

theorem ofText?_cons_minus (text : List Char) : ofText? ('-' :: text) = ofMagnitude? true text := rfl

theorem ofText?_of_head?_ne {text : List Char} (h : text.head? ≠ some '-') :
    ofText? text = ofMagnitude? false text := by
  unfold ofText?
  split
  next negative magnitude hsign =>
  split at hsign
  · exact absurd rfl h
  · cases hsign
    rfl

theorem ofMagnitude?_append {negative : Bool} {whole rest : List Char}
    (hwhole : ∀ c ∈ whole, c.isDigit = true) (hne : whole ≠ [])
    (hzero : whole.length = 1 ∨ whole.head? ≠ some '0')
    (hrest : ∀ c ∈ rest.head?, c.isDigit = false) :
    ofMagnitude? negative (whole ++ rest) = tail? negative whole rest := by
  rw [ofMagnitude?, digits?_append hne hwhole hrest]
  exact if_pos hzero

theorem numberChars_of_ofMagnitude? {negative : Bool} {text : List Char} {n : Numeral}
    (h : ofMagnitude? negative text = some n) : (∀ c ∈ text, isNumberChar c = true) ∧
      ∃ c cs, text = c :: cs ∧ c.isDigit = true := by
  rw [ofMagnitude?] at h
  split at h
  · next whole rest hdigits =>
    obtain ⟨rfl, hne, hwhole⟩ := eq_append_of_digits? hdigits
    split at h
    · obtain ⟨c, cs, rfl⟩ := List.exists_cons_of_ne_nil hne
      refine ⟨List.forall_mem_append.2
        ⟨fun d hd => isNumberChar_of_isDigit (hwhole d hd), isNumberChar_of_tail? h⟩, ?_⟩
      exact ⟨c, cs ++ rest, rfl, hwhole c List.mem_cons_self⟩
    · cases h
  · cases h

/-- Only characters of numbers stand in a numeral, and it begins with a digit or a minus sign. -/
theorem numberChars_of_ofText? {text : List Char} {n : Numeral} (h : ofText? text = some n) :
    (∀ c ∈ text, isNumberChar c = true) ∧
      ∃ c cs, text = c :: cs ∧ (c.isDigit = true ∨ c = '-') := by
  by_cases hsign : text.head? = some '-'
  · obtain ⟨text, rfl⟩ := List.head?_eq_some_iff.1 hsign
    rw [ofText?_cons_minus] at h
    exact ⟨List.forall_mem_cons.2 ⟨rfl, (numberChars_of_ofMagnitude? h).1⟩, '-', text, rfl, .inr rfl⟩
  · rw [ofText?_of_head?_ne hsign] at h
    obtain ⟨hall, c, cs, htext, hc⟩ := numberChars_of_ofMagnitude? h
    exact ⟨hall, c, cs, htext, .inl hc⟩

/-- A numeral may be a zero but not begin with one. -/
theorem length_eq_one_or_head?_ne (n : Nat) :
    (Decimal.ofNat n).length = 1 ∨ (Decimal.ofNat n).head? ≠ some '0' := by
  by_cases h : n = 0
  · exact .inl (h ▸ rfl)
  · exact .inr (Decimal.head?_ofNat h)

theorem head?_ofNat_ne_minus (n : Nat) : (Decimal.ofNat n).head? ≠ some '-' := by
  intro h
  obtain ⟨digits, hdigits⟩ := List.head?_eq_some_iff.1 h
  exact Decimal.cons_minus_ne_ofNat digits n hdigits.symm

theorem ofText?_ofInt (n : Int) : ofText? (Decimal.ofInt n) =
    some ⟨decide (n < 0), Decimal.ofNat n.natAbs, none, none⟩ := by
  have hmagnitude : ∀ negative : Bool, ofMagnitude? negative (Decimal.ofNat n.natAbs) =
      some ⟨negative, Decimal.ofNat n.natAbs, none, none⟩ := fun negative => by
    rw [ofMagnitude?, digits?_ofNat]
    exact if_pos (length_eq_one_or_head?_ne _)
  rw [Decimal.ofInt]
  split
  · next hneg => rw [ofText?_cons_minus, hmagnitude, decide_eq_true hneg]
  · next hpos =>
    rw [ofText?_of_head?_ne (head?_ofNat_ne_minus _), hmagnitude, decide_eq_false hpos]

/-- The numeral of a whole number denotes it, and no minus sign stands in front of a zero. -/
theorem number?_ofInt (n : Int) (lower : -9223372036854775808 ≤ n)
    (upper : n < 18446744073709551616) :
    (Numeral.mk (decide (n < 0)) (Decimal.ofNat n.natAbs) none none).number? =
      some (.int n lower upper) := by
  have hvalue : (if decide (n < 0) = true then -(n.natAbs : Int) else n.natAbs) = n := by
    split
    · next h => have := of_decide_eq_true h; omega
    · next h => have := mt decide_eq_true h; omega
  have hzero : ¬ (decide (n < 0) = true ∧ n.natAbs = 0) := by
    rw [decide_eq_true_iff]
    omega
  simp only [number?, Option.isNone_none, Decimal.toNat_ofNat, hvalue, hzero]
  simp [lower, upper]

end Numeral

namespace Token

variable {tokens : List Token}

/-! ## Strings -/

/-- A piece stands for a character: as it is, or as the unit of a control character. -/
inductive Piece.Denotes : Piece → Char → Prop
  | char (c : Char) : Denotes (.char c) c
  | unit {c : Char} (h : c.toNat < 0x20) : Denotes (.unit c.toNat) c

theorem hexDigit?_digitChar : ∀ n < 16, hexDigit? (Nat.digitChar n) = some n := by decide

/-- What is written for a character: a short escape, a unit, or the character itself. -/
theorem renderChar_eq (c : Char) : (∃ e, escape? e = some c ∧ renderChar c = ['\\', e]) ∨
    (c.toNat < 0x20 ∧ renderChar c =
      ['\\', 'u', '0', '0', Nat.digitChar (c.toNat / 16), Nat.digitChar (c.toNat % 16)]) ∨
    (0x20 ≤ c.toNat ∧ c ≠ '"' ∧ c ≠ '\\' ∧ renderChar c = [c]) := by
  unfold renderChar
  split
  case h_8 hquote hslash _ _ _ _ _ =>
    split
    · next hlt => exact .inr (.inl ⟨hlt, rfl⟩)
    · next hle => exact .inr (.inr ⟨Nat.le_of_not_lt hle, hquote, hslash, rfl⟩)
  all_goals exact .inl ⟨_, rfl, rfl⟩

/-- One character of a string is read as a piece that stands for it. -/
theorem splitFrom_renderChar (tokens : List Token) (pieces : List Piece) (c : Char) :
    ∃ piece : Piece, piece.Denotes c ∧ ∀ text, splitFrom (.string pieces) tokens (renderChar c ++ text) =
      splitFrom (.string (piece :: pieces)) tokens text := by
  obtain ⟨e, he, hrender⟩ | ⟨hlt, hrender⟩ | ⟨hle, hquote, hslash, hrender⟩ := renderChar_eq c
  · refine ⟨.char c, .char c, fun text => ?_⟩
    have hunit : e ≠ 'u' := by rintro rfl; cases he
    rw [hrender]
    simp [splitFrom, Mode.step, hunit, he]
  · refine ⟨.unit c.toNat, .unit hlt, fun text => ?_⟩
    have hhigh := hexDigit?_digitChar (c.toNat / 16) (by omega)
    have hlow := hexDigit?_digitChar (c.toNat % 16) (by omega)
    have hzero : hexDigit? '0' = some 0 := rfl
    rw [hrender]
    simp [splitFrom, Mode.step, hhigh, hlow, hzero, Nat.div_add_mod']
  · refine ⟨.char c, .char c, fun text => ?_⟩
    rw [hrender]
    simp [splitFrom, Mode.step, hquote, hslash, Nat.not_lt.2 hle]

theorem splitFrom_flatMap_renderChar (tokens : List Token) (cs : List Char) (pieces : List Piece) :
    ∃ new : List Piece, List.Forall₂ Piece.Denotes new cs ∧
      ∀ text, splitFrom (.string pieces) tokens (cs.flatMap renderChar ++ text) =
        splitFrom (.string (new.reverse ++ pieces)) tokens text := by
  induction cs generalizing pieces with
  | nil => exact ⟨[], .nil, fun text => rfl⟩
  | cons c cs ih =>
    obtain ⟨piece, hpiece, hfirst⟩ := splitFrom_renderChar tokens pieces c
    obtain ⟨new, hnew, hrest⟩ := ih (piece :: pieces)
    refine ⟨piece :: new, .cons hpiece hnew, fun text => ?_⟩
    rw [List.flatMap_cons, List.append_assoc, hfirst, hrest, List.reverse_cons, List.append_assoc]
    rfl

/-- A unit that is no surrogate stands for itself, whatever follows. -/
theorem chars?_unit {n : Nat} (h : n < 0xD800) (pieces : List Piece) :
    chars? (.unit n :: pieces) = (chars? pieces).map (.ofNat n :: ·) := by
  have hhigh : isHighSurrogate n = false := by
    simp only [isHighSurrogate, Bool.and_eq_false_iff, decide_eq_false_iff_not]
    omega
  have hlow : isLowSurrogate n = false := by
    simp only [isLowSurrogate, Bool.and_eq_false_iff, decide_eq_false_iff_not]
    omega
  cases pieces with
  | nil => simp [chars?, hhigh, hlow]
  | cons piece pieces => cases piece <;> simp [chars?, hhigh, hlow]

theorem chars?_of_denotes {pieces : List Piece} {cs : List Char}
    (h : List.Forall₂ Piece.Denotes pieces cs) : chars? pieces = some cs := by
  induction h with
  | nil => rfl
  | @cons piece c pieces cs hpiece hrest ih =>
    cases hpiece with
    | char => rw [chars?, ih]; rfl
    | unit hlt => rw [chars?_unit (by omega), ih, Char.ofNat_toNat]; rfl

/-- The text of a string is one token. -/
theorem splitFrom_renderString (s : String) (text : List Char) :
    splitFrom .between tokens (renderString s ++ text) =
      splitFrom .between (.string (some s) :: tokens) text := by
  obtain ⟨pieces, hpieces, hsplit⟩ :=
    splitFrom_flatMap_renderChar tokens s.toList []
  have hend : ofPieces (pieces.reverse ++ []).reverse = .string (some s) := by
    rw [List.append_nil, List.reverse_reverse, ofPieces, chars?_of_denotes hpieces, Option.map_some,
      String.ofList_toList]
  rw [renderString, List.append_assoc, List.cons_append]
  show splitFrom (.string []) tokens _ = _
  rw [hsplit, List.cons_append]
  show splitFrom .between (ofPieces _ :: tokens) _ = _
  rw [hend]
  rfl

/-! ## Numbers -/

theorem start_of_digit {c : Char} (h : c.isDigit = true ∨ c = '-') :
    Mode.start c = some (.number [c], []) := by
  unfold Mode.start
  split
  case h_15 => rw [if_pos h]
  all_goals exact absurd h (by decide)

/-- The text of a whole number is read as a numeral that denotes it. -/
theorem ofNumber?_ofInt (n : Int) (lower : -9223372036854775808 ≤ n)
    (upper : n < 18446744073709551616) :
    ofNumber? (Decimal.ofInt n) = some (.number (some (.int n lower upper))) := by
  rw [ofNumber?, Numeral.ofText?_ofInt, Option.map_some, Numeral.number?_ofInt n lower upper]

/-- A number goes on as long as its characters do. -/
theorem splitFrom_number {cs : List Char} (h : ∀ c ∈ cs, isNumberChar c = true)
    (chars text : List Char) : splitFrom (.number chars) tokens (cs ++ text) =
      splitFrom (.number (cs.reverse ++ chars)) tokens text := by
  induction cs generalizing chars with
  | nil => rfl
  | cons c cs ih =>
    rw [List.cons_append, splitFrom, Mode.step, if_pos (h c List.mem_cons_self)]
    show splitFrom (.number (c :: chars)) tokens (cs ++ text) = _
    rw [ih (fun c hc => h c (List.mem_cons_of_mem _ hc)), List.reverse_cons, List.append_assoc]
    rfl

/-- A number ends at a character that cannot belong to it, and at the end of the text. -/
theorem splitFrom_number_end {chars : List Char} {token : Token}
    (h : ofNumber? chars.reverse = some token) {text : List Char}
    (htext : ∀ c ∈ text.head?, isNumberChar c = false) :
    splitFrom (.number chars) tokens text = splitFrom .between (token :: tokens) text := by
  cases text with
  | nil => simp [splitFrom, Mode.finish, h]
  | cons c text =>
    have hc : isNumberChar c = false := htext c rfl
    simp only [splitFrom, Mode.step, hc, h]
    cases Mode.start c with
    | none => rfl
    | some begun => simp

theorem splitFrom_ofInt {n : Int} {lower : -9223372036854775808 ≤ n}
    {upper : n < 18446744073709551616} {text : List Char}
    (htext : ∀ c ∈ text.head?, isNumberChar c = false) :
    splitFrom .between tokens (Decimal.ofInt n ++ text) =
      splitFrom .between (.number (some (.int n lower upper)) :: tokens) text := by
  obtain ⟨hall, c, cs, hcons, hc⟩ := Numeral.numberChars_of_ofText? (Numeral.ofText?_ofInt n)
  rw [hcons] at hall
  have hnumber : ofNumber? (cs.reverse ++ [c]).reverse =
      some (.number (some (.int n lower upper))) := by
    rw [List.reverse_append, List.reverse_reverse, List.reverse_singleton, List.singleton_append,
      ← hcons]
    exact ofNumber?_ofInt n lower upper
  rw [hcons, List.cons_append, splitFrom, Mode.step, start_of_digit hc]
  show splitFrom (.number [c]) tokens (cs ++ text) = _
  rw [splitFrom_number fun d hd => hall d (List.mem_cons_of_mem _ hd),
    splitFrom_number_end hnumber htext]

end Token

namespace Value

open Token

/-! ## Values -/

/-- What may follow a value: nothing, a comma or the end of a container. -/
def Follows (text : List Char) : Prop := ∀ c ∈ text.head?, c ∈ [',', ']', '\x7d']

theorem Follows.not_isNumberChar {text : List Char} (h : Follows text) :
    ∀ c ∈ text.head?, isNumberChar c = false := by
  intro c hc
  have hmark : c ∈ [',', ']', '\x7d'] := h c hc
  simp only [List.mem_cons, List.not_mem_nil, or_false] at hmark
  rcases hmark with rfl | rfl | rfl <;> rfl

theorem follows_renderItems (items : List Value) (text : List Char) :
    Follows (renderItems items ++ text) := by
  cases items <;> simp [renderItems, Follows]

theorem follows_renderFields (fields : List (String × Value)) (text : List Char) :
    Follows (renderFields fields ++ text) := by
  cases fields <;> simp [renderFields, Follows]

mutual

/-- The text of a value is split into its tokens. -/
theorem Whole.split_render : ∀ {value : Value} {done : List Token} {text : List Char},
    value.Whole → Follows text →
    splitFrom .between done (value.render ++ text) =
      splitFrom .between (value.tokens.reverse ++ done) text
  | .null, _, _, _, _ => rfl
  | .bool true, _, _, _, _ => rfl
  | .bool false, _, _, _, _ => rfl
  | .number (.int n _ _), _, _, _, htext => splitFrom_ofInt htext.not_isNumberChar
  | .string s, _, text, _, _ => splitFrom_renderString s text
  | .array [], _, _, _, _ => rfl
  | .array (item :: items), done, text, h, _ => by
    rw [Whole, WholeItems] at h
    simp only [render, tokens, List.cons_append, List.append_assoc, List.reverse_cons,
      List.reverse_append]
    show splitFrom .between (.openArray :: done) _ = _
    rw [Whole.split_render h.1 (follows_renderItems items text), split_renderItems h.2]
    rfl
  | .object [], _, _, _, _ => rfl
  | .object ((name, value) :: fields), done, text, h, _ => by
    rw [Whole, WholeFields] at h
    simp only [render, tokens, List.cons_append, List.append_assoc, List.reverse_cons,
      List.reverse_append]
    show splitFrom .between (.openObject :: done) _ = _
    rw [splitFrom_renderString]
    show splitFrom .between (.colon :: _) _ = _
    rw [Whole.split_render h.1 (follows_renderFields fields text), split_renderFields h.2]
    rfl

theorem split_renderItems : ∀ {items : List Value} {done : List Token} {text : List Char},
    WholeItems items →
    splitFrom .between done (renderItems items ++ text) =
      splitFrom .between ((itemTokens items).reverse ++ done) text
  | [], _, _, _ => rfl
  | item :: items, done, text, h => by
    rw [WholeItems] at h
    simp only [renderItems, itemTokens, List.cons_append, List.append_assoc, List.reverse_cons,
      List.reverse_append]
    show splitFrom .between (.comma :: done) _ = _
    rw [Whole.split_render h.1 (follows_renderItems items text), split_renderItems h.2]
    rfl

theorem split_renderFields : ∀ {fields : List (String × Value)} {done : List Token}
    {text : List Char}, WholeFields fields →
    splitFrom .between done (renderFields fields ++ text) =
      splitFrom .between ((fieldTokens fields).reverse ++ done) text
  | [], _, _, _ => rfl
  | (name, value) :: fields, done, text, h => by
    rw [WholeFields] at h
    simp only [renderFields, fieldTokens, List.cons_append, List.append_assoc, List.reverse_cons,
      List.reverse_append]
    show splitFrom .between (.comma :: done) _ = _
    rw [splitFrom_renderString]
    show splitFrom .between (.colon :: _) _ = _
    rw [Whole.split_render h.1 (follows_renderFields fields text), split_renderFields h.2]
    rfl

end

/-- A text that is nothing but a value is split into the tokens of that value. -/
theorem Whole.ofText?_render {value : Value} (h : value.Whole) :
    Token.ofText? value.render = some value.tokens := by
  have hend : Follows [] := fun _ hc => by cases hc
  have hsplit : splitFrom .between [] (value.render ++ []) = _ := h.split_render hend
  rw [List.append_nil, List.append_nil] at hsplit
  rw [Token.ofText?, hsplit]
  simp [splitFrom, Mode.finish]

end Value

end StepLedger.Json

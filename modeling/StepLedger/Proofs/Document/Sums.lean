import StepLedger.Proofs.Document.Equal
import StepLedger.Proofs.Store.Served

/-!
# What an update makes of a document

An update sets fields first and then adds its amounts one after the other, so that every partial sum
must be a word of 64 bits, not only the last. `AddsUp` is the addition as it is seen from one field:
the amounts for other fields play no part in it (`foldlM_increment_eq_ok_iff`). In closed form it is
one sum with a bound on each of its beginnings (`addsUp_iff`).

`apply_spec` says when an update succeeds, what each field holds then, and what a collection is left
with in either case.
-/

namespace StepLedger.Update

variable {u : Update} {d d' : Document}

/-! ## The parts of an update -/

/-- The update names the primary key, wherever it does. -/
def NamesId (u : Update) : Prop :=
  u.set.get? idField ≠ none ∨ u.setOnInsert.get? idField ≠ none ∨ idField ∈ u.inc.map (·.1)

/-- What a field holds when the fields are set and nothing has been added yet. -/
def base (u : Update) (d : Document) (field : String) : Option Json.Value :=
  (u.set.get? field).or (d.get? field)

/-- The amounts for one field, in order. -/
def amountsFor (field : String) (inc : List (String × Int64)) : List Int64 :=
  inc.filterMap fun entry => if entry.1 = field then some entry.2 else none

/-- The sum of amounts, which may be too large or too small for a word. -/
def total (amounts : List Int64) : Int := amounts.foldr (fun amount sum => amount.toInt + sum) 0

/-- The integer fits a word of 64 bits with sign. -/
def IsWord (n : Int) : Prop := -9223372036854775808 ≤ n ∧ n < 9223372036854775808

/-- What a field counts as when something is added to it: nothing and `null` as zero, a whole number
as itself if it is a word, and no other value as anything. -/
inductive CountsAs : Option Json.Value → Int → Prop
  | missing : CountsAs none 0
  | null : CountsAs (some .null) 0
  | int {n : Int} {lower upper} (word : IsWord n) : CountsAs (some (.number (.int n lower upper))) n

theorem touchesId_iff : u.touchesId = true ↔ u.NamesId := by
  rw [touchesId, NamesId, ← Option.isSome_iff_ne_none, ← Option.isSome_iff_ne_none]
  simp [or_assoc]

theorem amountsFor_cons (name field : String) (amount : Int64) (inc : List (String × Int64)) :
    amountsFor name ((field, amount) :: inc) =
      if field = name then amount :: amountsFor name inc else amountsFor name inc := by
  by_cases h : field = name <;> simp [amountsFor, h]

/-- There are amounts for the fields that are named, and for no others. -/
theorem amountsFor_eq_nil_iff {name : String} {inc : List (String × Int64)} :
    amountsFor name inc = [] ↔ name ∉ inc.map (·.1) := by
  simp only [amountsFor, List.filterMap_eq_nil_iff, List.mem_map, not_exists, not_and]
  refine forall₂_congr fun entry _ => ?_
  by_cases h : entry.1 = name <;> simp [h]

@[simp] theorem total_nil : total [] = 0 := rfl

@[simp] theorem total_cons (amount : Int64) (amounts : List Int64) :
    total (amount :: amounts) = amount.toInt + total amounts := rfl

theorem isWord_toInt (n : Int64) : IsWord n.toInt := ⟨n.le_toInt, n.toInt_lt⟩

/-- An integer that fits a word is that of a word. -/
theorem IsWord.exists_toInt {n : Int} (h : IsWord n) : ∃ word : Int64, word.toInt = n :=
  ⟨.ofInt n, Int64.toInt_ofInt_of_le h.1 h.2⟩

theorem CountsAs.isWord {value : Option Json.Value} {n : Int} (h : CountsAs value n) : IsWord n := by
  cases h with
  | missing | null => exact ⟨by decide, by decide⟩
  | int word => exact word

@[simp] theorem countsAs_none {n : Int} : CountsAs none n ↔ n = 0 :=
  ⟨fun h => by cases h; rfl, fun h => h ▸ .missing⟩

@[simp] theorem countsAs_null {n : Int} : CountsAs (some .null) n ↔ n = 0 :=
  ⟨fun h => by cases h; rfl, fun h => h ▸ .null⟩

@[simp] theorem countsAs_ofInt64 {word : Int64} {n : Int} :
    CountsAs (some (.number (.ofInt64 word))) n ↔ n = word.toInt :=
  ⟨fun h => by cases h; rfl, fun h => h ▸ .int (isWord_toInt word)⟩

/-! ## One addition -/

theorem toInt64?_eq_some_iff {number : Json.Number} {word : Int64} :
    number.toInt64? = some word ↔ number = .ofInt64 word := by
  cases number with
  | float => simp [Json.Number.toInt64?, Json.Number.ofInt64]
  | int n lower upper =>
    simp only [Json.Number.toInt64?, Json.Number.ofInt64, Json.Number.int.injEq]
    have hword := isWord_toInt word
    constructor
    · intro h
      split at h
      · next hup => cases h; exact (Int64.toInt_ofInt_of_le lower hup).symm
      · cases h
    · rintro rfl
      rw [if_pos hword.2, Int64.ofInt_toInt]

/-- A field is read as an integer if it counts as one. -/
theorem current_eq_ok_iff {field : String} {word : Int64} :
    current d field = .ok word ↔ CountsAs (d.get? field) word.toInt := by
  have hzero : (0 : Int64) = word ↔ word.toInt = 0 := by
    rw [eq_comm, ← Int64.toInt_inj]
    rfl
  rw [current]
  cases d.get? field with
  | none => simp [hzero]
  | some value =>
    cases value with
    | null => simp [hzero]
    | number number =>
      dsimp only
      constructor
      · intro h
        split at h
        · next hsome =>
          cases h
          rw [toInt64?_eq_some_iff.1 hsome, countsAs_ofInt64]
        · cases h
      · intro h
        have hnumber : number = .ofInt64 word := by
          generalize hn : word.toInt = n at h
          cases h
          subst hn
          rfl
        rw [toInt64?_eq_some_iff.2 hnumber]
    | bool | string | array | object => constructor <;> rintro ⟨⟩

/-- To add to a field succeeds if it counts as an integer and the sum is a word. -/
theorem increment_eq_ok_iff {field : String} {amount : Int64} :
    increment d field amount = .ok d' ↔ ∃ (n : Int) (sum : Int64), CountsAs (d.get? field) n ∧
      sum.toInt = n + amount.toInt ∧ d' = d.set field (.ofInt64 sum) := by
  rw [increment, Except.bind_eq_ok]
  constructor
  · rintro ⟨word, hword, h⟩
    split at h
    · next sum hsum =>
      cases h
      exact ⟨_, sum, current_eq_ok_iff.1 hword, addChecked_eq_some_iff.1 hsum, rfl⟩
    · cases h
  · rintro ⟨n, sum, hcounts, hsum, rfl⟩
    obtain ⟨word, rfl⟩ := hcounts.isWord.exists_toInt
    refine ⟨word, current_eq_ok_iff.2 hcounts, ?_⟩
    rw [addChecked_eq_some_iff.2 hsum]
    rfl

/-! ## All additions, seen from one field -/

/-- Amounts added to what a field holds, one after the other; each sum is a word. -/
inductive AddsUp : Option Json.Value → List Int64 → Option Json.Value → Prop
  | nil {value : Option Json.Value} : AddsUp value [] value
  | cons {value result : Option Json.Value} {n : Int} {sum amount : Int64} {amounts : List Int64}
    (counts : CountsAs value n) (sums : sum.toInt = n + amount.toInt)
    (rest : AddsUp (some (.number (.ofInt64 sum))) amounts result) :
    AddsUp value (amount :: amounts) result

@[simp] theorem addsUp_nil {value result : Option Json.Value} :
    AddsUp value [] result ↔ result = value :=
  ⟨fun h => by cases h; rfl, fun h => h ▸ .nil⟩

/-- Amounts are added to fields as every field sees it. -/
theorem foldlM_increment_eq_ok_iff {inc : List (String × Int64)} :
    inc.foldlM (fun d field => increment d field.1 field.2) d = .ok d' ↔
      ∀ name, AddsUp (d.get? name) (amountsFor name inc) (d'.get? name) := by
  induction inc generalizing d with
  | nil =>
    constructor
    · rintro ⟨⟩ name
      exact .nil
    · intro h
      have heq : d' = d := Document.ext_get? fun name => addsUp_nil.1 (h name)
      exact heq ▸ rfl
  | cons entry inc ih =>
    obtain ⟨field, amount⟩ := entry
    rw [List.foldlM_cons, Except.bind_eq_ok]
    constructor
    · rintro ⟨added, hadd, hrest⟩ name
      obtain ⟨n, sum, hcounts, hsum, rfl⟩ := increment_eq_ok_iff.1 hadd
      have hname := ih.1 hrest name
      rw [amountsFor_cons]
      split
      · next heq =>
        subst heq
        rw [Document.get?_set_self] at hname
        exact .cons hcounts hsum hname
      · next hne => rwa [Document.get?_set_ne d (Ne.symm hne)] at hname
    · intro h
      have hfield := h field
      rw [amountsFor_cons, if_pos rfl] at hfield
      cases hfield with
      | cons hcounts hsum hfield =>
        refine ⟨_, increment_eq_ok_iff.2 ⟨_, _, hcounts, hsum, rfl⟩, ih.2 fun name => ?_⟩
        rw [Document.get?_set]
        split
        · next heq => subst heq; exact hfield
        · next hne => simpa [amountsFor_cons, Ne.symm hne] using h name

/-- If they add up for every field, they are added. -/
theorem exists_foldlM_increment {inc : List (String × Int64)}
    (h : ∀ name, ∃ result, AddsUp (d.get? name) (amountsFor name inc) result) :
    ∃ d', inc.foldlM (fun d field => increment d field.1 field.2) d = .ok d' := by
  induction inc generalizing d with
  | nil => exact ⟨d, rfl⟩
  | cons entry inc ih =>
    obtain ⟨field, amount⟩ := entry
    obtain ⟨result, hfield⟩ := h field
    rw [amountsFor_cons, if_pos rfl] at hfield
    cases hfield with
    | cons hcounts hsum hfield =>
      obtain ⟨d', hrest⟩ := ih (d := d.set field (.ofInt64 _)) fun name => by
        rw [Document.get?_set]
        split
        · next heq => subst heq; exact ⟨result, hfield⟩
        · next hne => simpa [amountsFor_cons, Ne.symm hne] using h name
      refine ⟨d', ?_⟩
      rw [List.foldlM_cons, increment_eq_ok_iff.2 ⟨_, _, hcounts, hsum, rfl⟩]
      exact hrest

/-! ## In closed form -/

/-- The beginnings of amounts, one of them in front. -/
theorem forall_prefix_cons {p : List Int64 → Prop} {amount : Int64} {amounts : List Int64} :
    (∀ first, first <+: amount :: amounts → p first) ↔
      p [] ∧ ∀ first, first <+: amounts → p (amount :: first) := by
  constructor
  · intro h
    exact ⟨h [] List.nil_prefix, fun first hfirst => h _ (List.cons_prefix_cons.2 ⟨rfl, hfirst⟩)⟩
  · rintro ⟨hnil, hcons⟩ first hfirst
    obtain rfl | ⟨rest, rfl, hrest⟩ := List.prefix_cons_iff.1 hfirst
    · exact hnil
    · exact hcons rest hrest

/-- From a word on, the amounts add up if all their beginnings sum up to words. -/
theorem addsUp_ofInt64_iff {word : Int64} {amounts : List Int64} {result : Option Json.Value} :
    AddsUp (some (.number (.ofInt64 word))) amounts result ↔
      (∀ first, first <+: amounts → IsWord (word.toInt + total first)) ∧
      ∃ sum : Int64, sum.toInt = word.toInt + total amounts ∧
        result = some (.number (.ofInt64 sum)) := by
  induction amounts generalizing word with
  | nil =>
    simp only [addsUp_nil, List.prefix_nil, forall_eq, total_nil, Int.add_zero, Int64.toInt_inj,
      exists_eq_left]
    exact (and_iff_right (isWord_toInt word)).symm
  | cons amount amounts ih =>
    rw [forall_prefix_cons]
    simp only [total_nil, Int.add_zero, total_cons, ← Int.add_assoc]
    constructor
    · rintro ⟨⟩
      next n sum hcounts hsum hrest =>
        rw [countsAs_ofInt64] at hcounts
        rw [ih, hsum, hcounts] at hrest
        exact ⟨⟨isWord_toInt word, hrest.1⟩, hrest.2⟩
    · rintro ⟨⟨-, hfirst⟩, hresult⟩
      have hword : IsWord (word.toInt + amount.toInt) := by simpa using hfirst [] List.nil_prefix
      obtain ⟨sum, hsum⟩ := hword.exists_toInt
      rw [← hsum] at hfirst hresult
      exact .cons (countsAs_ofInt64.2 rfl) hsum (ih.2 ⟨hfirst, hresult⟩)

/-- Amounts add up, if there are any, to one sum whose every beginning is a word. -/
theorem addsUp_iff {value result : Option Json.Value} {amounts : List Int64} (hne : amounts ≠ []) :
    AddsUp value amounts result ↔ ∃ (n : Int) (sum : Int64), CountsAs value n ∧
      (∀ first, first <+: amounts → IsWord (n + total first)) ∧ sum.toInt = n + total amounts ∧
      result = some (.number (.ofInt64 sum)) := by
  obtain ⟨amount, amounts, rfl⟩ := List.exists_cons_of_ne_nil hne
  simp only [forall_prefix_cons, total_nil, Int.add_zero, total_cons, ← Int.add_assoc]
  constructor
  · rintro ⟨⟩
    next n added hcounts hadded hrest =>
      obtain ⟨hfirst, sum, hsum, rfl⟩ := addsUp_ofInt64_iff.1 hrest
      rw [hadded] at hfirst hsum
      exact ⟨n, sum, hcounts, ⟨hcounts.isWord, hfirst⟩, hsum, rfl⟩
  · rintro ⟨n, sum, hcounts, ⟨-, hfirst⟩, hsum, rfl⟩
    have hword : IsWord (n + amount.toInt) := by simpa using hfirst [] List.nil_prefix
    obtain ⟨added, hadded⟩ := hword.exists_toInt
    rw [← hadded] at hfirst hsum
    exact .cons hcounts hadded (addsUp_ofInt64_iff.2 ⟨hfirst, sum, hsum, rfl⟩)

/-! ## The whole update -/

theorem get?_overlay_set (u : Update) (d : Document) (field : String) :
    (d.overlay u.set).get? field = u.base d field :=
  Document.get?_overlay d u.set field

/-- An update that names no key sets and then adds, as each field sees it. -/
theorem apply_eq_ok_iff (h : ¬ u.NamesId) : u.apply d = .ok d' ↔
    ∀ field, AddsUp (u.base d field) (amountsFor field u.inc) (d'.get? field) := by
  rw [apply_eq, if_neg (by rwa [touchesId_iff]), foldlM_increment_eq_ok_iff]
  simp only [get?_overlay_set]

/-- It succeeds if every field that is added to counts as an integer from which on every beginning
of its amounts sums up to a word. -/
theorem exists_apply_iff (h : ¬ u.NamesId) : (∃ d', u.apply d = .ok d') ↔
    ∀ field ∈ u.inc.map (·.1), ∃ n, CountsAs (u.base d field) n ∧
      ∀ first, first <+: amountsFor field u.inc → IsWord (n + total first) := by
  constructor
  · rintro ⟨d', happly⟩ field hfield
    have hne : amountsFor field u.inc ≠ [] := fun hnil => amountsFor_eq_nil_iff.1 hnil hfield
    obtain ⟨n, -, hcounts, hfirst, -⟩ := (addsUp_iff hne).1 ((apply_eq_ok_iff h).1 happly field)
    exact ⟨n, hcounts, hfirst⟩
  · intro hall
    rw [apply_eq, if_neg (by rwa [touchesId_iff])]
    refine exists_foldlM_increment fun field => ?_
    rw [get?_overlay_set]
    by_cases hfield : field ∈ u.inc.map (·.1)
    · have hne : amountsFor field u.inc ≠ [] := fun hnil => amountsFor_eq_nil_iff.1 hnil hfield
      obtain ⟨n, hcounts, hfirst⟩ := hall field hfield
      obtain ⟨sum, hsum⟩ := (hfirst _ List.prefix_rfl).exists_toInt
      exact ⟨_, (addsUp_iff hne).2 ⟨n, sum, hcounts, hfirst, hsum, rfl⟩⟩
    · rw [amountsFor_eq_nil_iff.2 hfield]
      exact ⟨_, .nil⟩

/-- What is there for created documents only plays no part, unless it names the key. -/
theorem apply_withSetOnInsert {other : Document} (hid : u.setOnInsert.get? idField = none)
    (hother : other.get? idField = none) (d : Document) :
    ({ u with setOnInsert := other } : Update).apply d = u.apply d := by
  have htouch : ({ u with setOnInsert := other } : Update).touchesId = u.touchesId := by
    simp [touchesId, hid, hother]
  rw [apply_eq, apply_eq, htouch]

/-! ## In a collection -/

/-- Documents differ if some field does: only one of them has it, or their values there are not
equal. -/
theorem not_equal_iff : ¬ d.Equal d' ↔
    ∃ field, ¬ Option.Rel (fun value other => value.same other = true) (d.get? field)
      (d'.get? field) := by
  rw [Document.equal_iff, not_forall]

/-- Without zeros of binary64 in it, a document equals no other than itself. -/
theorem equal_iff_eq (hzero : d.toJson.value.zeroless = true) : d'.Equal d ↔ d' = d := by
  constructor
  · intro h
    exact Document.ext (Json.Value.object.inj (Json.Value.eq_of_same hzero h))
  · rintro rfl
    exact .refl _

/-- What an update does. If it names the primary key it fails. Otherwise it succeeds exactly if every
field that it adds to is missing, `null` or a word once the fields are set, and from there on every
beginning of the amounts for the field, in their order, sums up to a word. Then such a field holds
the whole sum, every other field what it was set to or what it held, and what is there for created
documents only has no effect. In a collection whose first match the document is, a success puts the
new document in its place and counts as a change exactly if a field differs; a failure changes
nothing. -/
theorem apply_spec (u : Update) (d : Document) :
    (u.NamesId → u.apply d = .error (.invalidArgument .keyUpdate)) ∧
    (¬ u.NamesId → ((∃ d', u.apply d = .ok d') ↔
      ∀ field ∈ u.inc.map (·.1), ∃ n, CountsAs (u.base d field) n ∧
        ∀ first, first <+: amountsFor field u.inc → IsWord (n + total first))) ∧
    (∀ d', u.apply d = .ok d' →
      (∀ field ∈ u.inc.map (·.1), ∃ (n : Int) (sum : Int64), CountsAs (u.base d field) n ∧
        sum.toInt = n + total (amountsFor field u.inc) ∧
        d'.get? field = some (.number (.ofInt64 sum))) ∧
      ∀ field ∉ u.inc.map (·.1), d'.get? field = u.base d field) ∧
    (∀ other : Document, u.setOnInsert.get? idField = none → other.get? idField = none →
      ({ u with setOnInsert := other } : Update).apply d = u.apply d) ∧
    ∀ (c : Collection) (f : Filter) (i : Nat), c.first? f = some (i, d) →
      (∀ e, u.apply d = .error e → Store.orUnchanged (·.updateFirst f u) c = (.error e, c)) ∧
      ∀ d', u.apply d = .ok d' → ∃ modified : Nat,
        Store.orUnchanged (·.updateFirst f u) c = (.ok ⟨1, modified⟩,
          { c with documents := c.documents.set i d', revision := c.revision + modified }) ∧
        modified ≤ 1 ∧
        (modified = 1 ↔ ∃ field, ¬ Option.Rel (fun value other => value.same other = true)
          (d'.get? field) (d.get? field)) ∧
        (d.toJson.value.zeroless = true → (modified = 1 ↔ d' ≠ d)) := by
  refine ⟨fun hid => ?_, exists_apply_iff, fun d' happly => ?_,
    fun other hid hother => apply_withSetOnInsert hid hother d, fun c f i hfirst => ⟨?_, ?_⟩⟩
  case refine_1 => rw [apply_eq, if_pos (touchesId_iff.2 hid)]
  case refine_2 =>
    have hid : ¬ u.NamesId := fun hid => by
      rw [apply_eq, if_pos (touchesId_iff.2 hid)] at happly
      cases happly
    have hadds := (apply_eq_ok_iff hid).1 happly
    refine ⟨fun field hfield => ?_, fun field hfield => get?_of_apply happly hfield⟩
    have hne : amountsFor field u.inc ≠ [] := fun hnil => amountsFor_eq_nil_iff.1 hnil hfield
    obtain ⟨n, sum, hcounts, -, hsum, hget⟩ := (addsUp_iff hne).1 (hadds field)
    exact ⟨n, sum, hcounts, hsum, hget⟩
  case refine_3 =>
    intro e happly
    refine Store.orUnchanged_of_error ?_
    rw [Collection.updateFirst, hfirst]
    simp only [happly, Except.error_bind]
  case refine_4 =>
    intro d' happly
    have hupdate : c.updateFirst f u =
        .ok (⟨1, if d'.same d then 0 else 1⟩, c.replaceAt i d d') := by
      rw [Collection.updateFirst, hfirst]
      simp only [happly, Except.ok_bind]
      rfl
    refine ⟨if d'.same d then 0 else 1, ?_, ?_, ?_, fun hzero => ?_⟩
    · rw [Store.orUnchanged_of_ok hupdate, Collection.replaceAt]
      split <;> rfl
    · split <;> decide
    · rw [← not_equal_iff, Document.Equal]
      split <;> simp [*]
    · rw [ne_eq, ← equal_iff_eq hzero, Document.Equal]
      split <;> simp [*]

/-- A document with a counter in `a` and none in `b`. -/
def account : Document :=
  .ofList [("id", .ofInt64 7), ("a", .ofInt64 5), ("c", .string "x")]

/-- An update that adds to `a` twice, and to `b` after it has set it to `null`. -/
def booking : Update :=
  (((empty.andSet "b" .null).andInc "a" 2).andInc "b" (-3)).andInc "a" (-1)

theorem apply_booking : ¬ booking.NamesId ∧ ∃ d', booking.apply account = .ok d' ∧
    d'.get? "a" = some (.number (.ofInt64 6)) ∧ d'.get? "b" = some (.number (.ofInt64 (-3))) ∧
    d'.get? "c" = some (.string "x") ∧
    Store.orUnchanged (·.updateFirst .all booking) ⟨"accounts", [account], ["7"], 1⟩ =
      (.ok ⟨1, 1⟩, ⟨"accounts", [d'], ["7"], 2⟩) := by
  have hid : ¬ booking.NamesId := by rw [← touchesId_iff]; decide
  have ha : booking.base account "a" = some (.number (.ofInt64 5)) := rfl
  have hb : booking.base account "b" = some .null := rfl
  obtain ⟨-, hsucceeds, hfields, -, hcollection⟩ := apply_spec booking account
  obtain ⟨d', happly⟩ := (hsucceeds hid).2 <| by
    intro field hfield
    obtain rfl | rfl : field = "a" ∨ field = "b" := by
      rw [show booking.inc.map (·.1) = ["a", "b", "a"] from rfl] at hfield
      simpa [or_comm, or_left_comm] using hfield
    · refine ⟨5, ha ▸ countsAs_ofInt64.2 rfl, ?_⟩
      rw [show amountsFor "a" booking.inc = [2, -1] from rfl]
      simp only [forall_prefix_cons, List.prefix_nil, forall_eq]
      exact ⟨⟨by decide, by decide⟩, ⟨by decide, by decide⟩, ⟨by decide, by decide⟩⟩
    · refine ⟨0, hb ▸ .null, ?_⟩
      rw [show amountsFor "b" booking.inc = [-3] from rfl]
      simp only [forall_prefix_cons, List.prefix_nil, forall_eq]
      exact ⟨⟨by decide, by decide⟩, ⟨by decide, by decide⟩⟩
  obtain ⟨hadded, hothers⟩ := hfields d' happly
  have hsix : d'.get? "a" = some (.number (.ofInt64 6)) := by
    obtain ⟨n, sum, hcounts, hsum, hget⟩ := hadded "a" (by decide)
    rw [ha, countsAs_ofInt64] at hcounts
    rw [hcounts] at hsum
    rw [hget, Int64.toInt_inj.1 (hsum.trans (by decide : _ = (6 : Int64).toInt))]
  have hthree : d'.get? "b" = some (.number (.ofInt64 (-3))) := by
    obtain ⟨n, sum, hcounts, hsum, hget⟩ := hadded "b" (by decide)
    rw [hb, countsAs_null] at hcounts
    rw [hcounts] at hsum
    rw [hget, Int64.toInt_inj.1 (hsum.trans (by decide : _ = (-3 : Int64).toInt))]
  obtain ⟨modified, hupdated, -, -, hchanged⟩ :=
    (hcollection ⟨"accounts", [account], ["7"], 1⟩ .all 0 rfl).2 d' happly
  have hone : modified = 1 := (hchanged rfl).2 fun heq => by
    have hfive : account.get? "a" = some (.number (.ofInt64 5)) := rfl
    rw [heq, hfive] at hsix
    exact absurd (Json.Value.number.inj (Option.some.inj hsix)) (by decide)
  subst hone
  exact ⟨hid, d', happly, hsix, hthree, hothers "c" (by decide), hupdated⟩

end StepLedger.Update

import Mathlib.Data.List.Sort
import Mathlib.Data.String.Basic
import StepLedger.Proofs.Store.Failure

/-!
# The catalogue after a request that failed

A collection is put into the catalogue before the first document is, and taken out of it before its
file is. So the catalogue may have changed when a request fails. `Store.Hasty` are the requests for
which it has: the catalogue then differs by the collection that the request names, and else it is as
it was (`Store.names_of_failure`).
-/

namespace StepLedger

theorem Entries.mem_names {α : Type} {name : String} {entries : List (String × α)} :
    name ∈ entries.map (·.1) ↔ (find? name entries).isSome = true := by
  induction entries with
  | nil => simp [find?]
  | cons entry rest ih =>
    obtain ⟨key, value⟩ := entry
    rw [List.map_cons, List.mem_cons, ih, find?]
    by_cases heq : key = name
    · simp [heq]
    · simp [heq, Ne.symm heq]

theorem Entries.ascending_ofList {α : Type} (pairs : List (String × α)) :
    Ascending (ofList pairs) :=
  List.foldlRecOn pairs _ .nil fun _ h pair _ => h.insert pair.1 pair.2

namespace Store

variable {s s' : Store} {name other : String}

/-! ## The names -/

theorem mem_names : name ∈ s.names ↔ (s.collection? name).isSome = true := Entries.mem_names

/-- The names in the catalogue ascend. -/
def Sorted (s : Store) : Prop := Entries.Ascending s.collections

/-- Catalogues of the same names list them in the same order. -/
theorem Sorted.names_ext (h : s.Sorted) (h' : s'.Sorted)
    (hnames : ∀ name, name ∈ s'.names ↔ name ∈ s.names) : s'.names = s.names :=
  List.Pairwise.eq_of_mem_iff (r := (· < ·)) (List.pairwise_map.2 h') (List.pairwise_map.2 h)
    hnames

theorem Sorted.put (h : s.Sorted) (name : String) (c : Collection) : (s.put name c).Sorted :=
  Entries.Ascending.insert h name c

theorem Sorted.creating (h : s.Sorted) (name : String) : (s.creating name).Sorted := by
  rw [Store.creating]
  split
  · exact h
  · exact h.put name _

theorem Sorted.saving (h : s.Sorted) (name : String) (a : Archive) (c : Collection) :
    (s.saving name a c).Sorted := h.put name c

theorem Sorted.erasing (h : s.Sorted) (name : String) : (s.erasing name).Sorted :=
  Entries.Ascending.erase h name

theorem mem_names_put (c : Collection) :
    other ∈ (s.put name c).names ↔ other = name ∨ other ∈ s.names := by
  rw [mem_names, mem_names, collection?_put]
  split <;> simp [*]

theorem mem_names_creating :
    other ∈ (s.creating name).names ↔ other = name ∨ other ∈ s.names := by
  rw [mem_names, mem_names, collection?_creating]
  split <;> simp [*]

theorem mem_names_erasing :
    other ∈ (s.erasing name).names ↔ other ≠ name ∧ other ∈ s.names := by
  rw [mem_names, mem_names, collection?_erasing]
  split <;> simp [*]

/-! ## Requests -/

section

variable {α : Type} {create : Bool} {operation : Collection → Except StoreError α × Collection}
  {result : Except StoreError α}

theorem Mutated.sorted (h : Mutated s name create operation (result, s')) (hs : s.Sorted) :
    s'.Sorted := by
  cases h with
  | refused | absent => exact hs
  | inMemory => exact hs.put name _
  | idle | void => exact hs.creating name
  | written => exact hs.saving name _ _

/-- A request that may create a collection does, whatever becomes of the request. -/
theorem Mutated.mem_names (h : Mutated s name create operation (result, s')) :
    other ∈ s'.names ↔
      other ∈ s.names ∨ other = name ∧ create = true ∧ s.check name = .ok () := by
  have created : ∀ {t : Store}, s.check name = .ok () →
      (create = true ∨ (s.collection? name).isSome = true) →
      (other ∈ t.names ↔ other = name ∨ other ∈ s.names) → (other ∈ t.names ↔
        other ∈ s.names ∨ other = name ∧ create = true ∧ s.check name = .ok ()) := by
    intro t admitted present hmem
    rw [hmem]
    constructor
    · rintro (rfl | hold)
      · obtain hcreate | hpresent := present
        · exact .inr ⟨rfl, hcreate, admitted⟩
        · exact .inl (Store.mem_names.2 hpresent)
      · exact .inl hold
    · rintro (hold | ⟨hname, -⟩)
      · exact .inr hold
      · exact .inl hname
  cases h with
  | refused cause => simp [cause]
  | absent plain => simp [plain]
  | inMemory admitted present => exact created admitted present (mem_names_put _)
  | idle admitted present => exact created admitted present mem_names_creating
  | void admitted present => exact created admitted present mem_names_creating
  | written admitted present => exact created admitted present (mem_names_put _)

end

theorem Dropped.sorted {result : Except StoreError Unit} (h : Dropped s name (result, s'))
    (hs : s.Sorted) : s'.Sorted := by
  cases h with
  | refused => exact hs
  | inMemory | fileless | deleted | failed => exact hs.erasing name

/-- A collection that may be dropped is, whatever becomes of its file. -/
theorem Dropped.mem_names {result : Except StoreError Unit} (h : Dropped s name (result, s')) :
    other ∈ s'.names ↔ other ∈ s.names ∧ (other = name → s.check name ≠ .ok ()) := by
  have dropped : s.check name = .ok () → (other ∈ (s.erasing name).names ↔
      other ∈ s.names ∧ (other = name → s.check name ≠ .ok ())) := by
    intro admitted
    rw [mem_names_erasing, and_comm]
    simp [admitted]
  cases h with
  | refused cause => simp [cause]
  | inMemory admitted | fileless admitted | deleted admitted | failed admitted =>
    exact dropped admitted

/-- What becomes of the catalogue when a request is answered. -/
theorem answer_names (hs : s.WellFormed) (request : Request) :
    (s.Sorted → (s.answer request).2.Sorted) ∧ ((∀ name, request ≠ .dropCollection name) →
      ∀ other, other ∈ (s.answer request).2.names ↔ other ∈ s.names ∨
        other = request.collection ∧ creates request = true ∧
          s.check request.collection = .ok ()) := by
  have hanswered := s.answered request
  generalize s.answer request = outcome at hanswered ⊢
  cases hanswered with
  | idle plain => exact ⟨id, fun _ other => by simp [plain]⟩
  | @edited _ _ absent _ edits =>
    have hm := edits.mutated hs absent
    exact ⟨hm.sorted, fun _ other => by rw [edits.creates_eq]; exact hm.mem_names⟩
  | dropped name => exact ⟨(dropped_drop s name).sorted, fun hdrop => absurd rfl (hdrop name)⟩

theorem Reachable.sorted (h : s.Reachable) : s.Sorted := by
  induction h with
  | inMemory => exact Entries.Ascending.nil
  | ofArchive h =>
    obtain ⟨cs, -, h⟩ := Except.bind_eq_ok.1 h
    cases h
    exact Entries.ascending_ofList _
  | answer request h ih => exact (answer_names h.wellFormed request).1 ih
  | close _ ih => exact ih
  | onDisk disk _ ih => exact ih

/-! ## Requests that fail -/

/-- The request is admitted and puts a collection into the catalogue, or takes one out of it. -/
def Hasty (s : Store) (request : Request) : Prop :=
  s.check request.collection = .ok () ∧
    (creates request = true ∧ request.collection ∉ s.names ∨
      request = .dropCollection request.collection ∧ request.collection ∈ s.names)

/-- The catalogue after a request that failed is as it was, or, if the request is `Hasty`, differs by
the collection that the request names. -/
theorem names_of_failure {request : Request} {e : StoreError} (hs : s.Reachable)
    (h : s.answer request = (.error e, s')) :
    (¬ s.Hasty request → s'.names = s.names) ∧
      (s.Hasty request →
        ∀ other, other ∈ s'.names ↔ (other ∈ s.names ↔ other ≠ request.collection)) := by
  obtain ⟨hsorted, hkept⟩ := answer_names hs.wellFormed request
  rw [h] at hsorted hkept
  by_cases hdrop : ∃ name, request = .dropCollection name
  · obtain ⟨name, rfl⟩ := hdrop
    have hd := dropped_drop s name
    rw [show s.drop name = _ from h] at hd
    have hmem : ∀ other, other ∈ s'.names ↔ _ := fun other => hd.mem_names
    constructor
    · intro hnot
      refine hs.sorted.names_ext (hsorted hs.sorted) fun other => (hmem other).trans ?_
      refine and_iff_left_of_imp fun hold heq hcheck => hnot ⟨hcheck, .inr ⟨rfl, heq ▸ hold⟩⟩
    · rintro ⟨hcheck, ⟨hcreates, -⟩ | ⟨-, hthere⟩⟩ other
      · cases hcreates
      · rw [hmem other]
        have hcheck : s.check name = .ok () := hcheck
        have hthere : name ∈ s.names := hthere
        by_cases heq : other = name
        · simp [heq, hthere, hcheck, Request.collection]
        · simp [heq, Request.collection]
  · have hmem := hkept fun name heq => hdrop ⟨name, heq⟩
    constructor
    · intro hnot
      refine hs.sorted.names_ext (hsorted hs.sorted) fun other => (hmem other).trans ?_
      refine or_iff_left_of_imp fun ⟨heq, hcreates, hcheck⟩ => ?_
      by_contra hnew
      exact hnot ⟨hcheck, .inl ⟨hcreates, heq ▸ hnew⟩⟩
    · rintro ⟨hcheck, ⟨hcreates, hnew⟩ | ⟨heq, -⟩⟩ other
      · rw [hmem other]
        by_cases heq : other = request.collection
        · simp [heq, hcreates, hcheck, hnew]
        · simp [heq]
      · exact absurd ⟨_, heq⟩ hdrop

/-- A document without a key is refused, and yet there is a collection for it. -/
theorem collection_of_keyless_document :
    inMemory.Reachable ∧ inMemory.names = [] ∧ ∃ s',
      inMemory.answer (.insertOne "steps" .empty) =
        (.error (.invalidArgument (.noKey "steps")), s') ∧ s'.names = ["steps"] :=
  ⟨.inMemory, rfl, _, rfl, rfl⟩

/-- The names before and after a request that fails to write: one more, and the same again. -/
theorem names_of_failure_of_page : ∃ s', (cabinet (some .create)).answer (.insertOne "pages" .page) =
      (.error (.storeUnavailable (.createTemporary .noSpace)), s') ∧
    (∀ other, other ∈ s'.names ↔ other = "pages") ∧
    ∃ s'', s'.answer (.insertOne "pages" .page) =
        (.error (.storeUnavailable (.createTemporary .noSpace)), s'') ∧ s''.names = s'.names := by
  have hfirst : ((cabinet (some .create)).answer (.insertOne "pages" .page)).1 =
      .error (.storeUnavailable (.createTemporary .noSpace)) := rfl
  have hnames : ((cabinet (some .create)).answer (.insertOne "pages" .page)).2.names =
      ["pages"] := rfl
  have hsecond : (((cabinet (some .create)).answer (.insertOne "pages" .page)).2.answer
      (.insertOne "pages" .page)).1 = .error (.storeUnavailable (.createTemporary .noSpace)) := rfl
  have hreachable := reachable_cabinet (some .create)
  refine ⟨_, Prod.ext hfirst rfl, fun other => ?_, _, Prod.ext hsecond rfl, ?_⟩
  · have hhasty : (cabinet (some .create)).Hasty (.insertOne "pages" .page) :=
      ⟨rfl, .inl ⟨rfl, List.not_mem_nil⟩⟩
    have hmem := (names_of_failure hreachable (Prod.ext hfirst rfl)).2 hhasty other
    simpa [cabinet, names, Request.collection] using hmem
  · refine (names_of_failure (hreachable.answer _) (Prod.ext hsecond rfl)).1 ?_
    rintro ⟨-, ⟨-, hnew⟩ | ⟨heq, -⟩⟩
    · rw [hnames] at hnew
      exact hnew (List.mem_singleton.2 rfl)
    · cases heq

end Store

end StepLedger

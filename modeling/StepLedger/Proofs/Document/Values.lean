import StepLedger.Proofs.Document.Apply
import StepLedger.Proofs.Store.Reachable

/-!
# What all values have in common

A property of values that the 64-bit integers have is kept in a store: if all values in a request have
it, and all in the documents of the store, then so have all in the documents after the request
(`Store.All.answer`).
-/

namespace StepLedger

variable {p : Json.Value → Prop}

/-! ## Values of documents -/

namespace Document

/-- All values of the document have the property. -/
def All (p : Json.Value → Prop) (d : Document) : Prop :=
  ∀ name value, d.get? name = some value → p value

theorem All.empty : Document.empty.All p := nofun

theorem All.set {d : Document} (h : d.All p) {field : String} {value : Json} (hvalue : p value.value) :
    (d.set field value).All p := by
  intro name other hother
  rw [get?_set] at hother
  split at hother
  · cases hother; exact hvalue
  · exact h name other hother

theorem All.overlay {d other : Document} (h : d.All p) (hother : other.All p) :
    (d.overlay other).All p := by
  intro name value hvalue
  rw [get?_overlay] at hvalue
  obtain hvalue | ⟨-, hvalue⟩ := Option.or_eq_some_iff.1 hvalue
  · exact hother name value hvalue
  · exact h name value hvalue

theorem all_ofList {fields : List (String × Json)} (h : ∀ field ∈ fields, p field.2.value) :
    (ofList fields).All p :=
  List.foldlRecOn fields _ All.empty fun _ hd field hfield => hd.set (h field hfield)

end Document

/-! ## Values of updates and requests -/

/-- All values that the update sets have the property. -/
def Update.All (p : Json.Value → Prop) (u : Update) : Prop := u.set.All p ∧ u.setOnInsert.All p

/-- All values that the filter asks for have the property. -/
def Filter.All (p : Json.Value → Prop) (f : Filter) : Prop := ∀ clause ∈ f.clauses, p clause.2.value

/-- All values that the request may put into a document have the property. -/
def Request.All (p : Json.Value → Prop) : Request → Prop
  | .insertOne _ d => d.All p
  | .insertMany _ ds => ∀ d ∈ ds, d.All p
  | .updateFirst _ _ u => u.All p
  | .findAndModify _ f u _ => f.All p ∧ u.All p
  | .find .. | .count .. | .dropCollection _ => True

/-- All values in the documents of the collection have the property. -/
def Collection.All (p : Json.Value → Prop) (c : Collection) : Prop := ∀ d ∈ c.documents, d.All p

/-- All values in the documents of the store have the property. -/
def Store.All (p : Json.Value → Prop) (s : Store) : Prop := ∀ name, (s.view name).All p

section Integers

variable (hp : ∀ n : Int64, p (Json.ofInt64 n).value)
include hp

namespace Update

theorem all_increment {d d' : Document} {field : String} {amount : Int64} (hd : d.All p)
    (h : increment d field amount = .ok d') : d'.All p := by
  obtain ⟨n, -, h⟩ := Except.bind_eq_ok.1 h
  split at h
  · cases h; exact hd.set (hp _)
  · cases h

theorem All.apply {u : Update} (hu : u.All p) {d d' : Document} (hd : d.All p)
    (h : u.apply d = .ok d') : d'.All p := by
  rw [apply_eq] at h
  split at h
  · cases h
  · exact Except.foldlM_induction (motive := Document.All p) h (hd.overlay hu.1)
      fun _ _ _ _ hd hi => all_increment hp hd hi

theorem All.create {u : Update} (hu : u.All p) {f : Filter} (hf : f.All p) {d : Document}
    (h : u.create f = .ok d) : d.All p := by
  rw [Update.create] at h
  split at h
  · cases h
  · exact All.apply hp hu ((Document.all_ofList hf).overlay hu.2) h

end Update

/-! ## Values of collections -/

namespace Collection

omit hp in
theorem All.insert {c c' : Collection} (hc : c.All p) {d : Document} (hd : d.All p)
    (h : c.insert d = .ok c') : c'.All p := by
  obtain ⟨key, -, -, rfl⟩ := insert_eq_ok h
  intro other hother
  rcases List.mem_append.1 hother with hold | hnew
  · exact hc other hold
  · rw [List.mem_singleton.1 hnew]
    exact hd

omit hp in
theorem All.insertMany {c : Collection} (hc : c.All p) {ds : List Document}
    (hds : ∀ d ∈ ds, d.All p) : (c.insertMany ds).2.All p := by
  obtain ⟨inserted, hpre, -, hdocuments, -⟩ := insertMany_eq c ds
  intro other hother
  rw [hdocuments] at hother
  rcases List.mem_append.1 hother with hold | hnew
  · exact hc other hold
  · exact hds other (hpre.subset hnew)

omit hp in
theorem All.replaceAt {c : Collection} (hc : c.All p) {i : Nat} {before after : Document}
    (hafter : after.All p) : (c.replaceAt i before after).All p := by
  intro other hother
  rcases List.mem_or_eq_of_mem_set hother with hold | rfl
  · exact hc other hold
  · exact hafter

theorem All.updateFirst {c c' : Collection} (hc : c.All p) {f : Filter} {u : Update} (hu : u.All p)
    {result : UpdateResult} (h : c.updateFirst f u = .ok (result, c')) : c'.All p := by
  obtain ⟨-, -, rfl⟩ | ⟨i, before, after, hfirst, happly, -, rfl⟩ := updateFirst_eq_ok h
  · exact hc
  · have hbefore := hc before (List.mem_of_getElem? (first?_eq_some hfirst).1)
    exact hc.replaceAt (Update.All.apply hp hu hbefore happly)

theorem All.findAndModify {c c' : Collection} (hc : c.All p) {f : Filter} (hf : f.All p) {u : Update}
    (hu : u.All p) {how : FindAndModify} {result : Option Document}
    (h : c.findAndModify f u how = .ok (result, c')) : c'.All p := by
  obtain ⟨i, before, after, hfirst, happly, -, rfl⟩ |
      ⟨-, ⟨-, -, rfl⟩ | ⟨-, created, hcreate, hinsert, -⟩⟩ := findAndModify_eq_ok h
  · have hbefore := hc before (List.mem_of_getElem? (first?_eq_some hfirst).1)
    exact hc.replaceAt (Update.All.apply hp hu hbefore happly)
  · exact hc
  · exact hc.insert (Update.All.create hp hu hf hcreate) hinsert

end Collection

/-! ## Values of stores -/

namespace Store

variable {s : Store}

/-- What a request does to a collection puts no other values into its documents than those of the
request. -/
theorem Edits.all {request : Request} {create : Bool}
    {operation : Collection → Except StoreError request.Answer × Collection}
    (h : Edits request create operation) (hrequest : request.All p) {c : Collection} (hc : c.All p) :
    (operation c).2.All p := by
  cases h with
  | insertOne name d =>
    refine orUnchanged_induction hc fun {_ c'} hop => ?_
    obtain ⟨inserted, hi, heq⟩ := Except.map_eq_ok.1 hop
    cases heq
    exact hc.insert hrequest hi
  | insertMany => exact hc.insertMany hrequest
  | updateFirst => exact orUnchanged_induction hc fun hop => hc.updateFirst hp hrequest hop
  | findAndModify =>
    exact orUnchanged_induction hc fun hop => hc.findAndModify hp hrequest.1 hrequest.2 hop

theorem All.answer (hs : s.All p) (hwf : s.WellFormed) {request : Request} (h : request.All p) :
    (s.answer request).2.All p :=
  forall_view_answer (P := fun _ c => c.All p) hwf hs (fun _ _ hd => absurd hd List.not_mem_nil)
    fun edits _ hc => edits.all hp h hc

end Store

end Integers

end StepLedger

import StepLedger.Proofs.Sequence.Holding
import StepLedger.Proofs.Step.Keeping

/-!
# Why requests of operations are refused

An operation that keeps the ledger inserts records under the ids that it holds and under no others:
its request is the same whatever the store, and with no steps in it nothing else would leave a ledger
(`Keeps.ids_of_insertMany`). So no key of a step is ever a duplicate, and a request of an operation
fails only because of an outage or because an argument is not valid (`Keeps.refusal`).
-/

namespace StepLedger

open Sequence

/-- The same without the documents of one collection, in memory and open. -/
def Store.cleared (s : Store) (collection : String) : Store :=
  { s.put collection (.empty collection) with archive := none, closed := false }

namespace Store

variable (s : Store) (collection : String)

theorem view_cleared_self : (s.cleared collection).view collection = .empty collection :=
  view_put_self s collection _

theorem view_cleared_ne {other : String} (hne : other ≠ collection) :
    (s.cleared collection).view other = s.view other := view_put_ne s hne _

theorem wellFormed_cleared (hs : s.WellFormed) : (s.cleared collection).WellFormed :=
  hs.put ⟨Collection.wellFormed_empty collection, rfl⟩

/-- What is asked of the collection that was cleared takes effect at once. -/
theorem mutate_cleared {α : Type} (hname : isName collection = true) (create : Bool) (absent : α)
    (operation : Collection → Except StoreError α × Collection) :
    ((s.cleared collection).mutate collection create absent operation).1 =
        (operation (.empty collection)).1 ∧
      ((s.cleared collection).mutate collection create absent operation).2.view collection =
        (operation (.empty collection)).2 := by
  have hcheck : (s.cleared collection).check collection = .ok () := check_eq_ok.2 ⟨rfl, hname⟩
  have hthere : (s.cleared collection).collection? collection = some (.empty collection) :=
    (collection?_put s collection collection _).trans (if_pos rfl)
  rw [mutate, hcheck, hthere]
  exact ⟨rfl, view_put_self _ collection _⟩

/-- Where a collection may not be used, a request that changes it is refused. -/
theorem kind_of_mutate {α : Type} {s s' : Store} {name : String} {create : Bool} {absent : α}
    {operation : Collection → Except StoreError α × Collection} {cause e : StoreError}
    (hcheck : s.check name = .error cause)
    (h : s.mutate name create absent operation = (.error e, s')) :
    e.kind = .storeUnavailable ∨ e.kind = .invalidArgument := by
  rw [mutate, hcheck] at h
  cases h
  exact kind_of_check hcheck

end Store

/-! ## Inserted ids -/

/-- What a request of an operation comes to that keeps the ledger. -/
theorem Keeps.kept {site : Site} {what : Command} {held : List Int64} {request : Request}
    {next : request.Answer → Program Reply} (h : Keeps site what held (.ask request next)) {s : Store}
    {value : Int64} {records : List StepRecord} (hledger : Ledger site s value records)
    (hfresh : Fresh held value records) :
    Kept site what held value records (fun held answer => Keeps site what held (next answer)) next
      (s.answer request) := h s value records hledger hfresh

theorem Ledger.cleared {site : Site} {s : Store} {value : Int64} {records : List StepRecord}
    (h : Ledger site s value records) : Ledger site (s.cleared site.steps) value [] where
  wellFormed := s.wellFormed_cleared site.steps h.wellFormed
  counter := by
    rw [Store.lastValue?, Store.counter?, s.view_cleared_ne site.steps h.apart.symm]
    exact h.counter
  documents := by rw [s.view_cleared_self]; rfl
  ids_le := by simp

theorem Fresh.cleared {held : List Int64} {value : Int64} {records : List StepRecord}
    (h : Fresh held value records) : Fresh held value [] := ⟨h.nodup, h.le, by simp⟩

/-- Where there were no steps, records have come up under the ids that are held. -/
theorem Kept.ids_eq {site : Site} {what : Command} {held : List Int64} {value : Int64}
    {request : Request} {goesOn : List Int64 → request.Answer → Prop}
    {next : request.Answer → Program Reply} {result : Except StoreError request.Answer} {s' : Store}
    (h : Kept site what held value [] goesOn next (result, s'))
    (hne : (s'.view site.steps).documents ≠ []) :
    ∃ (rs : List StepRecord) (answer : request.Answer), result = .ok answer ∧
      (s'.view site.steps).documents = rs.map StepRecord.toDocument ∧ rs.map (·.id) = held := by
  cases h with
  | refused ledger | looked ledger _ | allocated _ ledger _ => exact absurd ledger.documents hne
  | inserted ledger ids => exact ⟨_, _, rfl, by simpa using ledger.documents, ids⟩
  | replaced place => cases place

namespace Keeps

variable {site : Site} {what : Command} {held : List Int64} {s s' : Store} {value : Int64}
  {records rs : List StepRecord} {r : StepRecord}

/-- Records are inserted under the ids that are held. -/
theorem ids_of_insertMany {next : Nat → Program Reply} (h : Keeps site what held
      (.ask (.insertMany site.steps (rs.map StepRecord.toDocument)) next)) (hrs : rs ≠ [])
    (hname : Store.isName site.steps = true) (hledger : Ledger site s value records)
    (hfresh : Fresh held value records) : rs.map (·.id) = held := by
  have hds : (rs.map StepRecord.toDocument).isEmpty = false := by simpa using hrs
  obtain ⟨hresult, hview⟩ := s.mutate_cleared site.steps hname true 0
    (·.insertMany (rs.map StepRecord.toDocument))
  have hkept := h.kept hledger.cleared hfresh.cleared
  rw [Store.answer, Store.insertMany, if_neg (by simp [hds])] at hkept
  generalize (s.cleared site.steps).mutate site.steps true 0 _ = outcome at hresult hview hkept
  obtain ⟨inserted, -, hall, hdocuments, -⟩ :=
    Collection.insertMany_eq (.empty site.steps) (rs.map StepRecord.toDocument)
  have hne : (outcome.2.view site.steps).documents ≠ [] := by
    obtain ⟨r, rest, rfl⟩ := List.exists_cons_of_ne_nil hrs
    have hfirst := Collection.insert_of_key (c := .empty site.steps) (StepRecord.key?_toDocument r)
      List.not_mem_nil
    obtain ⟨_, -, -, hrest, -⟩ := Collection.insertMany_eq _ (rest.map StepRecord.toDocument)
    rw [hview, List.map_cons, Collection.insertMany_cons hfirst, hrest]
    simp
  obtain ⟨rs', n, hok, hrecords, hids⟩ := Kept.ids_eq hkept hne
  rw [hview, hdocuments, hall n (hresult.symm.trans hok)] at hrecords
  have hsame : rs.map StepRecord.toDocument = rs'.map StepRecord.toDocument := hrecords
  rwa [StepRecord.map_id_of_map_toDocument hsame]

/-- A record is inserted under the id that is held. -/
theorem ids_of_insertOne {next : Unit → Program Reply} (h : Keeps site what held
      (.ask (.insertOne site.steps r.toDocument) next)) (hname : Store.isName site.steps = true)
    (hledger : Ledger site s value records) (hfresh : Fresh held value records) : [r.id] = held := by
  have hinsert := Collection.insert_of_key (c := .empty site.steps) (StepRecord.key?_toDocument r)
    List.not_mem_nil
  obtain ⟨-, hview⟩ := s.mutate_cleared site.steps hname true ()
    (Store.orUnchanged fun c => (c.insert r.toDocument).map ((), ·))
  have hdocuments : (Store.orUnchanged (fun c => (c.insert r.toDocument).map ((), ·))
      (.empty site.steps)).2.documents = [r.toDocument] := by
    rw [Store.orUnchanged, hinsert]
    rfl
  rw [← hview] at hdocuments
  have hkept := h.kept hledger.cleared hfresh.cleared
  rw [Store.answer, Store.insertOne] at hkept
  generalize (s.cleared site.steps).mutate site.steps true () _ = outcome at hdocuments hkept
  obtain ⟨rs', -, -, hrecords, hids⟩ := Kept.ids_eq hkept (by simp [hdocuments])
  have hsame : [r].map StepRecord.toDocument = rs'.map StepRecord.toDocument :=
    hdocuments.symm.trans hrecords
  rwa [← StepRecord.map_id_of_map_toDocument hsame] at hids

/-! ## Refusals -/

theorem refused_insertOne {next : Unit → Program Reply} (h : Keeps site what held
      (.ask (.insertOne site.steps r.toDocument) next)) (hledger : Ledger site s value records)
    (hfresh : Fresh held value records) {e : StoreError}
    (hinsert : s.insertOne site.steps r.toDocument = (.error e, s')) :
    e.IsOutage ∨ e.kind = .invalidArgument := by
  cases hcheck : s.check site.steps with
  | error cause => exact (Store.kind_of_mutate hcheck hinsert).imp_left .inl
  | ok _ =>
    obtain rfl := h.ids_of_insertOne (Store.check_eq_ok.1 hcheck).2 hledger hfresh
    obtain houtage | hkind | hop := Store.cause_of_insertOne hledger.wellFormed hinsert
    · exact .inl houtage
    · exact .inr hkind
    · have hfree : ∀ new ∈ [r], new.id ∉ records.map (·.id) := fun new hnew =>
        List.mem_singleton.1 hnew ▸ hfresh.notMem r.id List.mem_cons_self
      have hnew := hledger.keys_notMem hfree r.key List.mem_cons_self
      rw [Collection.insert_of_key (StepRecord.key?_toDocument r) hnew] at hop
      cases hop

theorem refused_insertMany {next : Nat → Program Reply} (h : Keeps site what held
      (.ask (.insertMany site.steps (rs.map StepRecord.toDocument)) next))
    (hledger : Ledger site s value records) (hfresh : Fresh held value records) {e : StoreError}
    (hinsert : s.insertMany site.steps (rs.map StepRecord.toDocument) = (.error e, s')) :
    e.IsOutage ∨ e.kind = .invalidArgument := by
  by_cases hrs : rs = []
  · subst hrs
    cases hinsert
  · cases hcheck : s.check site.steps with
    | error cause =>
      rw [Store.insertMany, if_neg (by simpa using hrs)] at hinsert
      exact (Store.kind_of_mutate hcheck hinsert).imp_left .inl
    | ok _ =>
      obtain rfl := h.ids_of_insertMany hrs (Store.check_eq_ok.1 hcheck).2 hledger hfresh
      obtain houtage | hkind | hop := Store.cause_of_insertMany hledger.wellFormed hinsert
      · exact .inl houtage
      · exact .inr hkind
      · obtain ⟨n, hall⟩ := Collection.insertMany_of_fresh (StepRecord.map_key?_toDocument rs)
          (StepRecord.nodup_map_key.2 hfresh.nodup) (hledger.keys_notMem fun r hr =>
            hfresh.notMem r.id (List.mem_map_of_mem hr))
        rw [hop] at hall
        cases hall

/-- A request of an operation fails only because of an outage or because an argument is not valid. -/
theorem refusal {request : Request} {next : request.Answer → Program Reply}
    (h : Keeps site what held (.ask request next)) (hposes : site.Poses request)
    (hledger : Ledger site s value records) (hfresh : Fresh held value records) {e : StoreError}
    (hanswer : s.answer request = (.error e, s')) :
    e.IsOutage ∨ e.kind = .invalidArgument := by
  have hs := hledger.wellFormed
  cases hposes with
  | insertOne r => exact refused_insertOne h hledger hfresh hanswer
  | insertMany rs => exact refused_insertMany h hledger hfresh hanswer
  | update | swap => exact Store.cause_of_updateFirst hs hanswer
  | find | count | read => exact (Store.kind_of_look rfl hanswer).imp_left .inl
  | increment name =>
    obtain houtage | hkind | ⟨hup, -⟩ := Store.cause_of_findAndModify hs hanswer
    · exact .inl houtage
    · exact .inr hkind
    · cases hup
  | seed name initial note => exact (Store.seed_error hs hanswer).imp_right And.left

end Keeps

/-- Whatever an operation requests, the counters stay counters. -/
theorem Store.HoldsCounters.answer {site : Site} {s : Store} (h : s.HoldsCounters site.counters)
    (hs : s.WellFormed) (happart : site.steps ≠ site.counters) {request : Request}
    (hrequest : site.Poses request) : (s.answer request).2.HoldsCounters site.counters := by
  have hsteps : ∀ {request : Request}, request.collection = site.steps →
      (s.answer request).2.HoldsCounters site.counters := fun heq =>
    h.of_view (view_answer_ne hs (heq ▸ happart.symm))
  cases hrequest with
  | insertOne | insertMany | find | count | update => exact hsteps rfl
  | read name => rwa [Store.answer, snd_find]
  | increment name =>
    exact h.findAndModify hs (fun _ _ => IsCounter.increment) fun hup => absurd hup Bool.false_ne_true
  | swap name value next => exact h.updateFirst hs (fun _ _ h happly => h.swap happly) _
  | seed name initial note =>
    refine h.findAndModify hs (fun _ _ h happly => h.seed happly) fun _ d hcreate => ?_
    exact ⟨_, Counter.decode_of_create hcreate⟩

end StepLedger

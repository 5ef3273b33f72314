import StepLedger.Proofs.Step.Stored
import StepLedger.Proofs.Store.Durable

/-!
# Steps and counters last

All that operations put into documents is kept by a snapshot: texts, whole numbers and `null`, one
in each field (`Site.Poses.durable`). So whatever operations are called, and in whatever condition
they find the disk, a durable store stays one (`Operation.durable_run`).
-/

namespace StepLedger

open Sequence

namespace StepRecord

/-- No field of a record is a container or a binary64 number. -/
theorem plain_of_mem_layout {r : StepRecord} {field : String × Json} (h : field ∈ r.layout)
    (depth : Nat) : field.2.value.Whole ∧ field.2.value.Fits depth := by
  have htime : ∀ time, (ofTime? time).value.Whole ∧ (ofTime? time).value.Fits depth := by
    intro time
    cases time <;> exact ⟨trivial, trivial⟩
  simp only [layout, List.mem_cons, List.not_mem_nil, or_false] at h
  rcases h with rfl | rfl | rfl | rfl | rfl | rfl | rfl | rfl | rfl | rfl | rfl | rfl | rfl | rfl |
    rfl | rfl | rfl | rfl | rfl
  all_goals first | exact htime _ | exact ⟨trivial, trivial⟩

theorem durable_of_mem_layout {r : StepRecord} {field : String × Json} (h : field ∈ r.layout) :
    field.2.value.Durable := plain_of_mem_layout h _

theorem durable_toDocument (r : StepRecord) : r.toDocument.All Json.Value.Durable :=
  Document.all_ofList fun _ hfield => durable_of_mem_layout hfield

theorem durable_update (r : StepRecord) : r.update.All Json.Value.Durable := by
  refine ⟨fun name value hvalue => ?_, .empty⟩
  rw [show r.update.set = r.toDocument.restrict mutableFields from rfl,
    Document.get?_restrict] at hvalue
  split at hvalue
  · exact r.durable_toDocument name value hvalue
  · cases hvalue

end StepRecord

/-- What operations ask drops no collection and is about documents that a snapshot keeps. -/
theorem Site.Poses.durable {site : Site} {request : Request} (h : site.Poses request) :
    request.All Json.Value.Durable ∧ ∀ name, request ≠ .dropCollection name := by
  refine ⟨?_, fun name => by rintro rfl; cases h⟩
  have hname : ∀ name, (Filter.byId (.string name)).All Json.Value.Durable := fun name clause hm => by
    rw [show clause = (idField, .string name) from List.mem_singleton.1 hm]
    exact Json.durable_string name
  cases h with
  | insertOne r => exact r.durable_toDocument
  | insertMany rs =>
    intro d hd
    obtain ⟨r, -, rfl⟩ := List.mem_map.1 hd
    exact r.durable_toDocument
  | find f => trivial
  | count f => trivial
  | update id version r => exact r.durable_update
  | read name => trivial
  | increment name => exact ⟨hname name, .empty, .empty⟩
  | swap name value next => exact ⟨Document.All.empty.set (Json.durable_ofInt64 next), .empty⟩
  | seed name initial note =>
    exact ⟨hname name, .empty,
      (Document.All.empty.set (Json.durable_ofInt64 initial)).set (Json.durable_string note)⟩

/-- Every operation leaves a durable store durable. -/
theorem Operation.durable_run (operation : Operation) {site : Site} {client : Client}
    {directory : String} {t : Scheduled} (h : t.store.Durable directory) :
    ((operation.program site client).run Scheduled.answer t).2.store.Durable directory :=
  h.run (Program.asks_mono (Operation.asks_program operation) (fun _ h => h.durable) fun _ h => h)

end StepLedger

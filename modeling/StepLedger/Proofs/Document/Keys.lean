import StepLedger.Document
import StepLedger.Proofs.Json.Distinct

/-!
# Key texts

Only one value has a given key text (`Document.keyText_inj`), so that the key text of a document tells
which value its primary key is, sign of a zero included (`Document.key?_eq_some_iff`).
-/

namespace StepLedger.Document

variable {d e : Document}

theorem keyText_inj {a b : Json.Value} : keyText a = keyText b ↔ a = b :=
  ⟨fun h => Json.Value.render_inj (String.ofList_injective h), congrArg keyText⟩

theorem key?_of_get? {id : Json.Value} (h : d.get? idField = some id) :
    d.key? = some (keyText id) := by
  rw [key?, h, Option.map_some]

theorem key?_eq_some_iff {id : Json.Value} :
    d.key? = some (keyText id) ↔ d.get? idField = some id := by
  refine ⟨fun h => ?_, key?_of_get?⟩
  obtain ⟨value, hvalue, htext⟩ := Option.map_eq_some_iff.1 h
  rw [hvalue, keyText_inj.1 htext]

end StepLedger.Document

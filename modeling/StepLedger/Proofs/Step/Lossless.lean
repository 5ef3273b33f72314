import StepLedger.Proofs.Calendar.Stamp
import StepLedger.Proofs.Step.ReadAfterWrite

/-!
# What the codec of stored steps loses

From executions to records, from records to documents and back. A document holds the nineteen fields of
the layout and nothing else (`StepRecord.perm_names_toDocument`), so the record can be read from it but
for the second that a time is counted in; and a record holds everything of the execution it was made of
but the end of a long exit description (`StepRecord.exists_ofExecution`). `lossless` puts both together
with the form of the times in between.
-/

namespace StepLedger

/-- The longest beginning of a text that has at most so many characters. -/
structure IsLongestPrefix (text : String) (cap : Nat) (cut : String) : Prop where
  begins : cut.toList <+: text.toList
  length_le : cut.length ≤ cap
  longest : ∀ other : String, other.toList <+: text.toList → other.length ≤ cap →
    other.length ≤ cut.length

theorem isLongestPrefix_cutDescription (description : String) (cap : Nat) :
    IsLongestPrefix description cap (cutDescription description cap) where
  begins := by
    rw [cutDescription, String.toList_ofList]
    exact List.take_prefix cap description.toList
  length_le := length_cutDescription description cap
  longest := by
    intro other hbegins hlength
    have hshort : other.length ≤ description.length := by
      rw [← String.length_toList, ← String.length_toList]
      exact hbegins.length_le
    rw [cutDescription, String.length_ofList, List.length_take, String.length_toList]
    exact Nat.le_min.2 ⟨hlength, hshort⟩

namespace StepRecord

/-! ## Documents -/

/-- A document has the fields of the layout, each of them once, and nothing else. -/
theorem perm_toDocument (r : StepRecord) :
    r.toDocument.fields.Perm (r.layout.map fun field => (field.1, field.2.value)) := by
  have hdocument := r.toDocument.ordered.1.nodup
  have hlayout : ((r.layout.map fun field => (field.1, field.2.value)).map (·.1)).Nodup := by
    rw [List.map_map]
    exact nodup_names
  refine (List.perm_ext_iff_of_nodup (.of_map _ hdocument) (.of_map _ hlayout)).2 ?_
  rintro ⟨name, value⟩
  rw [← Entries.find?_eq_some_iff_mem hdocument, ← Entries.find?_eq_some_iff_mem hlayout,
    Entries.find?_map]
  exact Eq.congr_left (get?_toDocument r name)

theorem perm_names_toDocument (r : StepRecord) : (r.toDocument.fields.map (·.1)).Perm names := by
  have hnames := r.perm_toDocument.map (·.1)
  rwa [List.map_map] at hnames

/-! ## Executions -/

/-- A record is made of every execution that is identified and may be stored. It holds all of it, with
the description cut. -/
theorem exists_ofExecution {e : StepExecution} (hid : e.id.isSome) (hversion : e.version.isSome)
    (hvalid : e.validate = .ok ()) (cap : Nat) :
    ∃ r, ofExecution e cap = .ok r ∧ r.toExecution e.job = e.cut cap := by
  obtain ⟨id, hid⟩ := Option.isSome_iff_exists.1 hid
  obtain ⟨version, hversion⟩ := Option.isSome_iff_exists.1 hversion
  obtain ⟨required, hrequired, -⟩ := Except.map_eq_ok.1 hvalid
  have hr : ∃ r, ofExecution e cap = .ok r := by
    rw [ofExecution, hrequired, Except.ok_bind, hid, hversion]
    exact ⟨_, rfl⟩
  obtain ⟨r, hr⟩ := hr
  exact ⟨r, hr, (ofExecution_eq_ok hr).2⟩

end StepRecord

/-- Next to nothing is lost. Every record is laid out in a document that has exactly the fields of the
layout, and it is read back from it with the nanoseconds of its times carried; so it is the same unless
a time has nanoseconds of a leap second that is none. Every identified execution that may be stored
becomes a record, and the execution of that, under the same job, is the one before with its description
cut to its longest beginning of at most `cap` characters. Every time is written in universal time, with
a fraction of no, three, six or nine digits. The year has the four digits of RFC 3339 exactly from 0 to
9999, and a sign and more digits elsewhere. What is read back is the same time of the same day, and the
same instant unless it has to be carried. -/
theorem lossless (r : StepRecord) (e : StepExecution) (cap : Nat) (i : Calendar.Instant) :
    (r.toDocument.fields.Perm (r.layout.map fun field => (field.1, field.2.value)) ∧
      (r.toDocument.fields.map (·.1)).Perm StepRecord.names ∧
      StepRecord.ofDocument r.toDocument = .ok r.carried ∧
      (StepRecord.ofDocument r.toDocument = .ok r ↔ (r.toExecution r.job).Proper)) ∧
    (e.id.isSome → e.version.isSome → e.validate = .ok () →
      ∃ r description, StepRecord.ofExecution e cap = .ok r ∧
        IsLongestPrefix e.exit.description cap description ∧
        r.toExecution e.job = { e with exit := e.exit.withDescription description }) ∧
    (i.text = i.stamp.text ∧ i.stamp.WellFormed ∧
      (Calendar.IsDigits 4 i.stamp.year ↔ 0 ≤ i.date.year ∧ i.date.year ≤ 9999) ∧
      Calendar.Instant.ofText i.text = .ok i.carried ∧ i.carried.date = i.date ∧
      i.carried.sinceMidnight = i.sinceMidnight ∧ (i.carried = i ↔ i.Proper)) := by
  refine ⟨⟨r.perm_toDocument, r.perm_names_toDocument, r.ofDocument_toDocument, ?_⟩,
    fun hid hversion hvalid => ?_, ?_⟩
  · rw [r.ofDocument_toDocument, Except.ok.injEq, StepRecord.carried_eq_self_iff]
  · obtain ⟨r, hr, hback⟩ := StepRecord.exists_ofExecution hid hversion hvalid cap
    exact ⟨r, _, hr, isLongestPrefix_cutDescription e.exit.description cap, hback⟩
  · exact ⟨i.text_stamp.symm, i.wellFormed_stamp, Calendar.Instant.isDigits_year_stamp_iff,
      i.ofText_text, i.date_carried, i.sinceMidnight_carried, Calendar.Instant.carried_eq_self_iff⟩

/-- A second with a third of the next one, which is not the last of a minute. -/
def Calendar.Instant.brimming : Calendar.Instant :=
  ⟨⟨2015, 6, 30, by decide, by decide, by decide⟩, 86164, 1333333333, by decide, by decide⟩

/-- Half a second after noon, on the first day of the first year that has five digits. -/
def Calendar.Instant.distant : Calendar.Instant :=
  ⟨⟨10000, 1, 1, by decide, by decide, by decide⟩, 43200, 500000000, by decide, by decide⟩

/-- The step that begins at such a time, as it is stored under an id. -/
def StepRecord.begun (startTime : Calendar.Instant) : StepRecord where
  id := 2
  version := 0
  name := "open"
  job := ⟨7, 3⟩
  startTime := startTime
  endTime := none
  status := .started
  exit := ⟨"EXECUTING", ""⟩
  counters := .zero
  lastUpdated := none

/-- The step of the year 10000 is read back as it was, three characters are left of a description of
nine, and the nanoseconds are read back in the next second. -/
theorem lossless_of_opening :
    StepRecord.ofDocument (StepRecord.begun .distant).toDocument = .ok (.begun .distant) ∧
    (∃ r description, StepRecord.ofExecution (.identified .opening 2 0) 3 = .ok r ∧
      IsLongestPrefix "under way" 3 description ∧
      r.toExecution ⟨7, 3⟩ = { StepExecution.opening.identified 2 0 with
        exit := ⟨"EXECUTING", description⟩ }) ∧
    Calendar.Instant.ofText Calendar.Instant.brimming.text = .ok Calendar.Instant.brimming.carried := by
  obtain ⟨⟨-, -, -, hsame⟩, hexecution, -, -, -, hread, -⟩ :=
    lossless (.begun .distant) (.identified .opening 2 0) 3 .brimming
  have hdistant : Calendar.Instant.distant.Proper := by decide
  have hproper : ((StepRecord.begun .distant).toExecution ⟨7, 3⟩).Proper :=
    ⟨fun _ heq => Option.mem_some.1 heq ▸ hdistant, by rintro _ ⟨⟩, by rintro _ ⟨⟩⟩
  exact ⟨hsame.2 hproper, hexecution rfl rfl rfl, hread⟩

/-- The nanoseconds are read back in another second, and the year 10000 is written with a sign, which
no year of RFC 3339 has. -/
theorem lossy_of_brimming :
    StepRecord.ofDocument (StepRecord.begun .brimming).toDocument ≠ .ok (.begun .brimming) ∧
    Calendar.Instant.brimming.text = "2015-06-30T23:56:05.333333333Z" ∧
    Calendar.Instant.distant.text = "+10000-01-01T12:00:00.500Z" ∧
    ¬ Calendar.IsDigits 4 Calendar.Instant.distant.stamp.year := by
  refine ⟨fun h => ?_, by decide +kernel, by decide +kernel, fun h => absurd h.1 (by decide +kernel)⟩
  rw [StepRecord.ofDocument_toDocument, Except.ok.injEq, StepRecord.carried_eq_self_iff] at h
  exact absurd (h.1 _ rfl) (by decide)

end StepLedger

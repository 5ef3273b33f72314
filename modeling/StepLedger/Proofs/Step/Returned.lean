import Mathlib.Data.Prod.Basic
import StepLedger.Proofs.Step.ReadAfterWrite

/-!
# What is returned and what is stored

A save and an update that succeed answer with what the caller passed, under the id and at the version
that are stored. The rest of it need not be what is stored: a long exit description is cut, nanoseconds
of a leap second that is none are carried, and an update leaves the name and the job as they were.
`returned_and_stored` says what is read back, and when it is the very record that was returned.
-/

namespace StepLedger

variable {site : Site} {client : Client} {s s' : Store}

/-- A record is left as it is by cutting it, carrying its nanoseconds and giving it a name, if it has
that name already, its description is short enough, and there is nothing to carry. -/
theorem StepExecution.named_cut_eq_self_iff {e : StepExecution} {cap : Nat} {name : Option String} :
    { e.carried.cut cap with name } = e ↔
      e.name = name ∧ e.exit.description.length ≤ cap ∧ e.Proper := by
  rw [← cut_eq_self_iff, ← carried_eq_self_iff]
  constructor
  · intro h
    have hexit : (e.cut cap).exit = e.exit := (congrArg StepExecution.exit h :)
    refine ⟨(congrArg StepExecution.name h).symm, congrArg (fun exit => { e with exit }) hexit, ?_⟩
    exact congrArg (fun read : StepExecution => { e with
      startTime := read.startTime, endTime := read.endTime, lastUpdated := read.lastUpdated }) h
  · rintro ⟨rfl, hcut, hcarried⟩
    rw [hcarried, hcut]

theorem StepExecution.cut_carried_eq_self_iff {e : StepExecution} {cap : Nat} :
    e.carried.cut cap = e ↔ e.exit.description.length ≤ cap ∧ e.Proper :=
  named_cut_eq_self_iff.trans (and_iff_right rfl)

/-- The record that was saved is read back with its description cut. -/
theorem get_after_saved (hs : s.WellFormed) (reader : Client) {e saved : StepExecution}
    (h : ((site.catalogue client).save e).run Store.answer s = (.returned saved, s')) :
    ∃ id, saved.id = some id ∧ ((site.catalogue reader).get saved.job id).run Store.answer s' =
      (.returned (saved.carried.cut client.cap), s') := by
  obtain ⟨id, between, r, hnext, rfl, hr, hinsert⟩ := Operation.save_returned h
  exact ⟨id, rfl, get_after_save (hs.of_run hnext) hr hinsert⟩

/-- The record that was updated is looked for under the job that was passed. Only if it is stored under
that, it is found, with the name that is stored. -/
theorem get_after_update_anywhere (hs : s.WellFormed) (hsteps : s.HoldsSteps site.steps)
    (reader : Client) {e updated : StepExecution}
    (h : ((site.catalogue client).update e).run Store.answer s = (.returned updated, s')) :
    ∃ (id : Int64) (before : StepRecord),
      before.toDocument ∈ (s.view site.steps).documents ∧ before.id = id ∧ updated.id = some id ∧
      (updated.job.id = before.job.id →
        ((site.catalogue reader).get updated.job id).run Store.answer s' =
          (.returned { updated.carried.cut client.cap with name := some before.name }, s')) ∧
      (updated.job.id ≠ before.job.id →
        ((site.catalogue reader).get updated.job id).run Store.answer s' =
          (.failed (.notFound (.stepOfJob id.toInt updated.job.id.toInt)), s')) := by
  obtain ⟨id, version, next, r, result, -, -, hnext, rfl, hr, hmatched, hupdate⟩ :=
    Operation.update_returned h
  obtain ⟨i, before, hi, hid, -, hbecomes, hget⟩ :=
    get_after_update hs hsteps hnext hr hmatched hupdate
  refine ⟨id, before, List.mem_of_getElem? hi, hid, rfl, hget reader e.job, fun hjob => ?_⟩
  have hs' := hs.of_answer (.updateFirst _ _ _) hupdate
  have hmem : (r.laidOver before).toDocument ∈ (s'.view site.steps).documents := by
    rw [hbecomes.documents]
    exact List.mem_set (List.getElem?_eq_some_iff.1 hi).1 _
  have helsewhere := run_get_elsewhere (c := site.catalogue reader) hs'
    (Store.check_of_updateFirst hupdate) hmem hjob
  rwa [show (r.laidOver before).id = id from hid] at helsewhere

/-- In every store that operations lead to: a record that a save returned is read back with its
description cut, and one that an update returned with the name that is stored as well, unless it names
another job than the one that it is stored under; then it is not found. So what is read back is what
was returned, unless the description is too long, a time has nanoseconds of a leap second that is none,
or the update names another job or another name. -/
theorem returned_and_stored (hs : site.Leads s) (client reader : Client) (e : StepExecution)
    (s' : Store) :
    (∀ saved, ((site.catalogue client).save e).run Store.answer s = (.returned saved, s') →
      ∃ id, saved.id = some id ∧
        ((site.catalogue reader).get saved.job id).run Store.answer s' =
          (.returned (saved.carried.cut client.cap), s') ∧
        (((site.catalogue reader).get saved.job id).run Store.answer s' = (.returned saved, s') ↔
          saved.exit.description.length ≤ client.cap ∧ saved.Proper)) ∧
    (∀ updated, ((site.catalogue client).update e).run Store.answer s = (.returned updated, s') →
      ∃ (id : Int64) (before : StepRecord),
        before.toDocument ∈ (s.view site.steps).documents ∧ before.id = id ∧ updated.id = some id ∧
        (updated.job.id = before.job.id →
          ((site.catalogue reader).get updated.job id).run Store.answer s' =
            (.returned { updated.carried.cut client.cap with name := some before.name }, s')) ∧
        (updated.job.id ≠ before.job.id →
          ((site.catalogue reader).get updated.job id).run Store.answer s' =
            (.failed (.notFound (.stepOfJob id.toInt updated.job.id.toInt)), s')) ∧
        (((site.catalogue reader).get updated.job id).run Store.answer s' =
            (.returned updated, s') ↔
          updated.job.id = before.job.id ∧ updated.name = some before.name ∧
            updated.exit.description.length ≤ client.cap ∧ updated.Proper)) := by
  have hreturned : ∀ found returned : StepExecution,
      ((Program.Outcome.returned found, s') : Program.Outcome StepExecution × Store) =
        (.returned returned, s') ↔ found = returned := fun found returned => by
    rw [Prod.mk.injEq, Program.Outcome.returned.injEq, and_iff_left rfl]
  obtain ⟨hwf, hsteps⟩ := hs.holdsSteps
  constructor
  · intro saved h
    obtain ⟨id, hid, hget⟩ := get_after_saved hwf reader h
    refine ⟨id, hid, hget, ?_⟩
    rw [← StepExecution.cut_carried_eq_self_iff, ← hreturned]
    exact Eq.congr_left hget
  · intro updated h
    obtain ⟨id, before, hbefore, hid, hupdated, hhere, helsewhere⟩ :=
      get_after_update_anywhere hwf hsteps reader h
    refine ⟨id, before, hbefore, hid, hupdated, hhere, helsewhere, ?_⟩
    by_cases hjob : updated.job.id = before.job.id
    · rw [hhere hjob, hreturned, StepExecution.named_cut_eq_self_iff, and_iff_right hjob]
    · rw [helsewhere hjob]
      exact iff_of_false nofun fun h => hjob h.1

/-- The execution that was saved, with another name and a short description. -/
def StepExecution.renamed : StepExecution :=
  { opening.identified 1 0 with name := some "close", exit := ⟨"EXECUTING", "on"⟩ }

theorem save_opening : ∃ s', ((Site.desk.catalogue .clerk).save .opening).run Store.answer .opened =
    (.returned (.identified .opening 2 0), s') := by
  have hsave : (((Site.desk.catalogue .clerk).save .opening).run Store.answer .opened).1 =
      .returned (.identified .opening 2 0) := by decide +kernel
  exact ⟨_, Prod.fst_eq_iff.1 hsave⟩

theorem update_renamed : ∃ s',
    ((Site.desk.catalogue .clerk).update .renamed).run Store.answer .opened =
      (.returned (.identified .renamed 1 1), s') := by
  have hupdate : (((Site.desk.catalogue .clerk).update .renamed).run Store.answer .opened).1 =
      .returned (.identified .renamed 1 1) := by decide +kernel
  exact ⟨_, Prod.fst_eq_iff.1 hupdate⟩

/-- A description of nine characters is read back with three, and a new name is read back only if it
was the old one. -/
theorem returned_and_stored_of_opening :
    Site.desk.Leads .opened ∧
      (∃ s', ((Site.desk.catalogue .clerk).save .opening).run Store.answer .opened =
          (.returned (.identified .opening 2 0), s') ∧
        ((Site.desk.catalogue .clerk).get ⟨7, 3⟩ 2).run Store.answer s' =
          (.returned ((StepExecution.opening.identified 2 0).cut 3), s')) ∧
      ∃ (s' : Store) (before : StepRecord),
        ((Site.desk.catalogue .clerk).update .renamed).run Store.answer .opened =
          (.returned (.identified .renamed 1 1), s') ∧
        (((Site.desk.catalogue .clerk).get ⟨7, 3⟩ 1).run Store.answer s' =
            (.returned (.identified .renamed 1 1), s') ↔
          7 = before.job.id ∧ some "close" = some before.name ∧ "on".length ≤ 3 ∧
            StepExecution.renamed.Proper) := by
  obtain ⟨saved, hsave⟩ := save_opening
  obtain ⟨updated, hupdate⟩ := update_renamed
  refine ⟨Store.leads_opened, ?_, ?_⟩
  · obtain ⟨id, hid, hget, -⟩ :=
      (returned_and_stored Store.leads_opened .clerk .clerk .opening saved).1 _ hsave
    cases hid
    exact ⟨saved, hsave, hget⟩
  · obtain ⟨id, before, -, -, hid, -, -, hsame⟩ :=
      (returned_and_stored Store.leads_opened .clerk .clerk .renamed updated).2 _ hupdate
    cases hid
    exact ⟨updated, before, hupdate, hsame⟩

/-- The record that a save returns is not the one that is read back. -/
theorem returned_is_not_stored :
    Site.desk.Leads .opened ∧ ∃ saved s',
      ((Site.desk.catalogue .clerk).save .opening).run Store.answer .opened = (.returned saved, s') ∧
      ∃ id, saved.id = some id ∧
        ((Site.desk.catalogue .clerk).get saved.job id).run Store.answer s' ≠ (.returned saved, s') := by
  obtain ⟨s', hsave⟩ := save_opening
  obtain ⟨id, hid, hget⟩ := get_after_saved Store.leads_opened.holdsSteps.1 .clerk hsave
  refine ⟨Store.leads_opened, _, s', hsave, id, hid, fun h => ?_⟩
  have hcut : (StepExecution.opening.identified 2 0).cut 3 = .identified .opening 2 0 :=
    Program.Outcome.returned.inj (congrArg Prod.fst (hget.symm.trans h))
  exact absurd (StepExecution.cut_eq_self_iff.1 hcut) (by decide)

end StepLedger

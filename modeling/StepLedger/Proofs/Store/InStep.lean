import StepLedger.Proofs.Store.Mutated

/-!
# The archive keeps step with the store

A store that is opened in an empty directory and is the only one to work there is in step with its
archive (`Store.InStep`): a collection that has been written to since it was created is in its file as
it is now, the others are empty, and there are no other files. Every request keeps the two in step,
whether it succeeds or not (`InStep.answer`); only a collection that cannot be dropped leaves its file
behind.
-/

namespace StepLedger

/-! ## Changes that count -/

namespace Collection

variable {c c' : Collection}

/-- A revision that moved tells of other documents. -/
def Tracks (c c' : Collection) : Prop := c'.revision ≠ c.revision → c'.documents ≠ c.documents

theorem Tracks.refl (c : Collection) : c.Tracks c := fun h => absurd rfl h

theorem tracks_insert {d : Document} (h : c.insert d = .ok c') : c.Tracks c' := by
  obtain ⟨key, -, -, rfl⟩ := insert_eq_ok h
  intro _ heq
  simpa using congrArg List.length heq

theorem tracks_insertMany (c : Collection) (ds : List Document) :
    c.Tracks (c.insertMany ds).2 := by
  obtain ⟨inserted, -, -, hdocuments, hrevision⟩ := insertMany_eq c ds
  intro hmoved heq
  have hnone : inserted = [] := by simpa [hdocuments] using heq
  rw [hrevision, hnone] at hmoved
  exact hmoved rfl

theorem tracks_replaceAt {i : Nat} {before after : Document}
    (hi : c.documents[i]? = some before) : c.Tracks (c.replaceAt i before after) := by
  intro hmoved heq
  have hafter : (c.documents.set i after)[i]? = some after := by
    rw [List.getElem?_set_self (List.getElem?_eq_some_iff.1 hi).1]
  rw [show c.documents.set i after = c.documents from heq, hi] at hafter
  cases hafter
  rw [replaceAt, if_pos (Document.same_refl _)] at hmoved
  exact hmoved rfl

theorem tracks_updateFirst {f : Filter} {u : Update} {result : UpdateResult}
    (h : c.updateFirst f u = .ok (result, c')) : c.Tracks c' := by
  obtain ⟨-, -, rfl⟩ | ⟨i, before, after, hfirst, -, -, rfl⟩ := updateFirst_eq_ok h
  · exact .refl _
  · exact tracks_replaceAt (first?_eq_some hfirst).1

theorem tracks_findAndModify {f : Filter} {u : Update} {how : FindAndModify}
    {result : Option Document} (h : c.findAndModify f u how = .ok (result, c')) : c.Tracks c' := by
  obtain ⟨i, before, after, hfirst, -, -, rfl⟩ | ⟨-, ⟨-, -, rfl⟩ | ⟨-, created, -, hi, -⟩⟩ :=
    findAndModify_eq_ok h
  · exact tracks_replaceAt (first?_eq_some hfirst).1
  · exact .refl _
  · exact tracks_insert hi

end Collection

namespace Store

/-- What requests do to a collection moves the revision only with the documents. -/
theorem Edits.tracks {request : Request} {create : Bool}
    {operation : Collection → Except StoreError request.Answer × Collection}
    (h : Edits request create operation) (c : Collection) : c.Tracks (operation c).2 := by
  cases h with
  | insertOne name d =>
    refine orUnchanged_induction (.refl c) fun {_ c'} hop => ?_
    obtain ⟨inserted, hi, heq⟩ := Except.map_eq_ok.1 hop
    cases heq
    exact Collection.tracks_insert hi
  | @insertMany name ds => exact Collection.tracks_insertMany c ds
  | updateFirst => exact orUnchanged_induction (.refl c) fun hop => Collection.tracks_updateFirst hop
  | findAndModify => exact orUnchanged_induction (.refl c) fun hop => Collection.tracks_findAndModify hop

/-! ## Store and archive -/

/-- The snapshot of a collection in a file, written at some time. -/
def Snapped (s : Store) (name text : String) : Prop :=
  ∃ now, text = (Snapshot.ofCollection now (s.view name)).text

/-- The archive in the directory holds what the store holds: each collection that has been `written`
to is in its file, the others are empty, and there are no other files. -/
structure InStep (directory : String) (s : Store) (a : Archive) (written : String → Prop) : Prop where
  durable : s.archive = some a
  rooted : a.directory = Path.ofText directory
  found : a.disk.files.find? a.directory = some .directory
  named : ∀ name, (s.collection? name).isSome = true → isName name = true
  there : ∀ name, written name → (s.collection? name).isSome = true ∧ a.Admits name
  filed : ∀ name, written name →
    ∃ text, a.disk.files.node? (a.place name) = some (.file text) ∧ s.Snapped name text
  blank : ∀ name, ¬ written name → (s.view name).documents = []
  only : ∀ file text, (file, .file text) ∈ a.disk.files.children a.directory.place →
    ∃ name, written name ∧ file = Archive.fileName name ∧ s.Snapped name text

/-- Of the collections that were `written` to, those still there, and those that got other
documents. -/
def nowWritten (written : String → Prop) (s s' : Store) (name : String) : Prop :=
  (s'.collection? name).isSome = true ∧
    (written name ∨ (s'.view name).documents ≠ (s.view name).documents)

section

variable {directory : String} {s s' : Store} {a : Archive} {written written' : String → Prop}
  {name : String}

theorem InStep.congr (h : InStep directory s a written) (hw : ∀ name, written' name ↔ written name) :
    InStep directory s a written' := by
  rwa [show written' = written from funext fun name => propext (hw name)]

theorem Snapped.of_view {text : String} (h : s.Snapped name text)
    (hview : s'.view name = s.view name) : s'.Snapped name text := by
  obtain ⟨now, htext⟩ := h
  exact ⟨now, by rw [hview, htext]⟩

/-- To create an empty collection writes nothing. -/
theorem InStep.creating (h : InStep directory s a written) (hname : isName name = true) :
    InStep directory (s.creating name) a written where
  durable := (archive_creating s name).trans h.durable
  rooted := h.rooted
  found := h.found
  named := fun other hother => by
    rw [collection?_creating] at hother
    split at hother
    · next heq => rw [heq]; exact hname
    · exact h.named other hother
  there := fun other hw => by
    refine ⟨?_, (h.there other hw).2⟩
    rw [collection?_creating]
    split
    · rfl
    · exact (h.there other hw).1
  filed := fun other hw => by
    obtain ⟨text, hnode, hsnapped⟩ := h.filed other hw
    exact ⟨text, hnode, hsnapped.of_view (view_creating s name other)⟩
  blank := fun other hw => by rw [view_creating, h.blank other hw]
  only := fun file text hmem => by
    obtain ⟨other, hw, hfile, hsnapped⟩ := h.only file text hmem
    exact ⟨other, hw, hfile, hsnapped.of_view (view_creating s name other)⟩

/-- To save a collection writes its file. -/
theorem InStep.saving (h : InStep directory s a written) {c : Collection} (hname : isName name = true)
    (hc : c.name = name) (hready : a.Ready name) :
    InStep directory (s.saving name a c) (a.keeping c) (fun other => other = name ∨ written other) := by
  subst hc
  exact {
    durable := rfl
    rooted := h.rooted
    found := hready.find?_directory
    named := fun other hother => by
      rw [collection?_saving] at hother
      split at hother
      · next heq => rw [heq]; exact hname
      · exact h.named other hother
    there := fun other hw => by
      rw [collection?_saving]
      split
      · next heq => rw [heq]; exact ⟨rfl, hready.admits⟩
      · next hne => exact h.there other (hw.resolve_left hne)
    filed := fun other hw => by
      by_cases heq : other = c.name
      · subst heq
        exact ⟨_, Archive.node?_keeping_self, a.disk.now, by rw [view_saving_self]⟩
      · obtain ⟨text, hnode, hsnapped⟩ := h.filed other (hw.resolve_left heq)
        refine ⟨text, ?_, hsnapped.of_view (view_saving_ne s heq a c)⟩
        exact (Archive.node?_keeping_ne (mt Archive.place_inj.1 heq)).trans hnode
    blank := fun other hw => by
      rw [not_or] at hw
      rw [view_saving_ne s hw.1, h.blank other hw.2]
    only := fun file text hmem => by
      rcases FileSystem.mem_children_put.1 hmem with ⟨rfl, heq⟩ | ⟨hold, hne⟩
      · cases heq
        exact ⟨c.name, .inl rfl, rfl, a.disk.now, by rw [view_saving_self]⟩
      · obtain ⟨other, hw, rfl, hsnapped⟩ := h.only file text hold
        have hother : other ≠ c.name := fun heq => hne (congrArg Archive.fileName heq)
        exact ⟨other, .inr hw, rfl, hsnapped.of_view (view_saving_ne s hother a c)⟩ }

/-- To drop a collection with its file leaves nothing of it. -/
theorem InStep.discarding (h : InStep directory s a written)
    (hfile : a.disk.files.isDirectory (a.place name) = false) :
    InStep directory (s.discarding name a) (a.without name)
      (fun other => other ≠ name ∧ written other) where
  durable := rfl
  rooted := h.rooted
  found := Archive.find?_directory_without h.found hfile
  named := fun other hother => by
    rw [collection?_discarding] at hother
    split at hother
    · cases hother
    · exact h.named other hother
  there := fun other hw => by
    rw [collection?_discarding, if_neg hw.1]
    exact h.there other hw.2
  filed := fun other hw => by
    obtain ⟨text, hnode, hsnapped⟩ := h.filed other hw.2
    refine ⟨text, ?_, hsnapped.of_view (view_discarding_ne s hw.1 a)⟩
    exact (FileSystem.node?_remove_ne (mt Archive.place_inj.1 hw.1)).trans hnode
  blank := fun other hw => by
    by_cases heq : other = name
    · rw [heq, view_discarding_self]
      rfl
    · rw [view_discarding_ne s heq, h.blank other fun hold => hw ⟨heq, hold⟩]
  only := fun file text hmem => by
    obtain ⟨hold, hne⟩ := FileSystem.mem_children_remove.1 hmem
    obtain ⟨other, hw, rfl, hsnapped⟩ := h.only file text hold
    have hother : other ≠ name := fun heq => hne (congrArg Archive.fileName heq)
    exact ⟨other, ⟨hother, hw⟩, rfl, hsnapped.of_view (view_discarding_ne s hother a)⟩

/-- A collection that has no file was not written to, and may be dropped alone. -/
theorem InStep.erasing (h : InStep directory s a written) (hname : isName name = true)
    (hmissing : a.disk.files.find? (a.file name) = none) :
    InStep directory (s.erasing name) a (fun other => other ≠ name ∧ written other) := by
  have hnot : ¬ written name := by
    intro hw
    obtain ⟨text, hnode, -⟩ := h.filed name hw
    rw [Archive.find?_file h.found hname (h.there name hw).2, hnode] at hmissing
    cases hmissing
  have hne : ∀ {other}, written other → other ≠ name := fun hw heq => hnot (heq ▸ hw)
  exact {
    durable := h.durable
    rooted := h.rooted
    found := h.found
    named := fun other hother => by
      rw [collection?_erasing] at hother
      split at hother
      · cases hother
      · exact h.named other hother
    there := fun other hw => by
      rw [collection?_erasing, if_neg hw.1]
      exact h.there other hw.2
    filed := fun other hw => by
      obtain ⟨text, hnode, hsnapped⟩ := h.filed other hw.2
      exact ⟨text, hnode, hsnapped.of_view (view_erase_ne s hw.1)⟩
    blank := fun other hw => by
      by_cases heq : other = name
      · rw [heq, show (s.erasing name).view name = _ from view_erase_self s name]
        rfl
      · rw [show (s.erasing name).view other = _ from view_erase_ne s heq,
          h.blank other fun hold => hw ⟨heq, hold⟩]
    only := fun file text hmem => by
      obtain ⟨other, hw, rfl, hsnapped⟩ := h.only file text hmem
      exact ⟨other, ⟨hne hw, hw⟩, rfl, hsnapped.of_view (view_erase_ne s (hne hw))⟩ }

/-! ## Requests -/

/-- Where nothing but empty collections has come, what was written to is as before. -/
theorem nowWritten_of_view (h : InStep directory s a written)
    (hview : ∀ name, s'.view name = s.view name)
    (hthere : ∀ name, (s.collection? name).isSome = true → (s'.collection? name).isSome = true)
    (name : String) : nowWritten written s s' name ↔ written name := by
  rw [nowWritten, hview name]
  exact ⟨fun hw => hw.2.resolve_right fun hne => hne rfl,
    fun hw => ⟨hthere name (h.there name hw).1, .inl hw⟩⟩

theorem InStep.unchanged (h : InStep directory s a written) :
    ∃ a', InStep directory s a' (nowWritten written s s) :=
  ⟨a, h.congr (nowWritten_of_view h (fun _ => rfl) fun _ => id)⟩

theorem InStep.mutated {α : Type} {create : Bool} {result : Except StoreError α}
    {operation : Collection → Except StoreError α × Collection}
    (h : InStep directory s a written)
    (hop : (s.view name).Tracks (operation (s.view name)).2)
    (hm : Mutated s name create operation (result, s')) :
    ∃ a', InStep directory s' a' (nowWritten written s s') := by
  have created : s.check name = .ok () →
      ∃ a', InStep directory (s.creating name) a' (nowWritten written s (s.creating name)) := by
    intro admitted
    refine ⟨a, (h.creating (check_eq_ok.1 admitted).2).congr
      (nowWritten_of_view h (view_creating s name) fun other hold => ?_)⟩
    rw [collection?_creating]
    split
    · rfl
    · exact hold
  cases hm with
  | refused | absent => exact h.unchanged
  | inMemory _ _ memory => rw [h.durable] at memory; cases memory
  | idle admitted => exact created admitted
  | void admitted => exact created admitted
  | @written archive _ c admitted _ durable outcome moved named ready =>
    obtain rfl : archive = a := Option.some.inj (durable.symm.trans h.durable)
    rw [outcome] at hop
    refine ⟨_, (h.saving (check_eq_ok.1 admitted).2 named ready).congr fun other => ?_⟩
    rw [nowWritten, collection?_saving]
    by_cases heq : other = name
    · subst heq
      simp [view_saving_self, hop moved]
    · rw [if_neg heq, view_saving_ne s heq]
      simp only [heq, false_or, ne_eq, not_true_eq_false, or_false]
      exact and_iff_right_of_imp fun hw => (h.there other hw).1

theorem InStep.dropped (h : InStep directory s a written)
    (hd : Dropped s name (.ok (), s')) : ∃ a', InStep directory s' a' (nowWritten written s s') := by
  have gone : ∀ other, nowWritten written s (s.erasing name) other ↔ other ≠ name ∧ written other := by
    intro other
    rw [nowWritten, collection?_erasing]
    by_cases heq : other = name
    · simp [heq]
    · rw [if_neg heq, show (s.erasing name).view other = _ from view_erase_ne s heq]
      simp only [ne_eq, not_true_eq_false, or_false, heq, not_false_eq_true, true_and]
      exact and_iff_right_of_imp fun hw => (h.there other hw).1
  cases hd with
  | inMemory _ memory => rw [h.durable] at memory; cases memory
  | @fileless archive admitted durable missing =>
    obtain rfl : archive = a := Option.some.inj (durable.symm.trans h.durable)
    exact ⟨_, (h.erasing (check_eq_ok.1 admitted).2 missing).congr gone⟩
  | @deleted archive admitted durable file =>
    obtain rfl : archive = a := Option.some.inj (durable.symm.trans h.durable)
    exact ⟨_, (h.discarding file).congr gone⟩

/-- Whatever a request answers, store and archive stay in step, as long as no collection is left
undropped. -/
theorem InStep.answer (h : InStep directory s a written) (hs : s.WellFormed) (request : Request)
    (hdrop : ∀ name, request = .dropCollection name → (s.drop name).1 = .ok ()) :
    ∃ a', InStep directory (s.answer request).2 a' (nowWritten written s (s.answer request).2) := by
  have hanswered := s.answered request
  generalize s.answer request = outcome at hanswered ⊢
  cases hanswered with
  | idle => exact h.unchanged
  | @edited _ _ absent _ edits => exact h.mutated (edits.tracks _) (edits.mutated hs absent)
  | dropped name =>
    have hd := dropped_drop s name
    rw [show s.drop name = (.ok (), (s.drop name).2) from Prod.ext (hdrop name rfl) rfl] at hd
    exact h.dropped hd

end

end Store

end StepLedger

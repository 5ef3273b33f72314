import StepLedger.Proofs.Archive.Loading
import StepLedger.Proofs.Document.Values
import StepLedger.Proofs.Store.Run

/-!
# Opening a directory again

A store that is in step with its archive can be opened again from the files, which changes none of
them (`InStep.reopen`). A collection without binary64 numbers then has the same documents in the same
order, unless one of them is nested deeper than a reader follows: then the collection is gone
(`Run.reopened`).
-/

namespace StepLedger

namespace Entries

variable {α : Type} {name : String} {value : α}

/-- What is found was put in. -/
theorem mem_of_find?_ofList {pairs : List (String × α)} (h : find? name (ofList pairs) = some value) :
    (name, value) ∈ pairs := by
  revert h
  refine List.foldlRecOn (motive := fun entries => find? name entries = some value → _) pairs _
    nofun fun entries ih pair hpair hfound => ?_
  by_cases heq : name = pair.1
  · subst heq
    rw [find?_insert_self] at hfound
    cases hfound
    exact hpair
  · rw [find?_insert_ne heq] at hfound
    exact ih hfound

/-- What was put in is found, unless something else is under its name. -/
theorem isSome_find?_ofList {pairs : List (String × α)} (h : (name, value) ∈ pairs) :
    (find? name (ofList pairs)).isSome = true := by
  suffices hfold : ∀ pairs entries : List (String × α),
      (name, value) ∈ pairs ∨ (find? name entries).isSome = true →
      (find? name (pairs.foldl (fun entries pair => insert pair.1 pair.2 entries)
        entries)).isSome = true from hfold pairs [] (.inl h)
  intro pairs
  induction pairs with
  | nil => exact fun _ h => h.resolve_left List.not_mem_nil
  | cons pair pairs ih =>
    intro entries h
    refine ih _ ?_
    by_cases heq : name = pair.1
    · subst heq
      exact .inr (by rw [find?_insert_self]; rfl)
    · rw [find?_insert_ne heq]
      refine h.imp_left fun hmem => (List.mem_cons.1 hmem).resolve_left ?_
      rintro rfl
      exact heq rfl

end Entries

/-! ## Collections that are read back -/

namespace Archive

variable {a : Archive}

/-- What is loaded from files that hold collections without binary64 numbers: those whose documents
are not nested too deep. -/
theorem loadFiles_snapshots {files : List (String × Node)} {collection : String → Collection}
    (hwf : ∀ name, (collection name).WellFormed ∧ (collection name).name = name)
    (hwhole : ∀ name, ∀ d ∈ (collection name).documents, d.Whole)
    (h : ∀ file text, (file, .file text) ∈ files → ∃ name, Store.isName name = true ∧
      file = fileName name ∧ ∃ now, text = (Snapshot.ofCollection now (collection name)).text) :
    ∃ cs, a.loadFiles files = .ok cs ∧ ∀ c, c ∈ cs ↔ ∃ name text, (fileName name, .file text) ∈ files ∧
      Store.isName name = true ∧ (∀ d ∈ (collection name).documents, d.Shallow) ∧
        c = { collection name with revision := 0 } := by
  have hne : ∀ {name}, Store.isName name = true → name ≠ "" := fun h => (inside_of_isName h).1.2.1
  have hgenuine : ∀ file node s, (file, node) ∈ files → genuine? file node = some s →
      ∃ c, ∀ shown, restore shown s = .ok c := by
    intro file node s hmem hs
    cases node with
    | directory => rw [genuine?_directory] at hs; cases hs
    | file text =>
      obtain ⟨name, hname, rfl, now, rfl⟩ := h file text hmem
      obtain ⟨-, -, rfl⟩ := (genuine?_eq_some_iff (hne hname) (hwhole name)).1 hs
      exact ⟨_, fun shown => restore_snapshot (hwf name).1⟩
  refine ⟨_, loadFiles_eq hgenuine, fun c => ?_⟩
  rw [List.mem_filterMap]
  constructor
  · rintro ⟨⟨file, node⟩, hmem, hc⟩
    cases node with
    | directory => rw [restored?, genuine?_directory] at hc; cases hc
    | file text =>
      obtain ⟨name, hname, rfl, now, rfl⟩ := h file text hmem
      obtain ⟨-, hshallow, rfl⟩ :=
        (restored?_eq_some_iff (hne hname) (hwf name).1 (hwhole name)).1 hc
      exact ⟨name, _, hmem, hname, hshallow, rfl⟩
  · rintro ⟨name, text, hmem, hname, hshallow, rfl⟩
    obtain ⟨other, -, heq, now, rfl⟩ := h _ text hmem
    obtain rfl := fileName_inj.1 heq
    exact ⟨_, hmem, (restored?_eq_some_iff (hne hname) (hwf name).1 (hwhole name)).2
      ⟨(hwf name).2, hshallow, rfl⟩⟩

end Archive

namespace Store

variable {directory : String} {s₀ s s' : Store} {a : Archive} {written : String → Prop}

/-- All documents of the collection with the name can be read back. -/
def Readable (s : Store) (name : String) : Prop := ∀ d ∈ (s.view name).documents, d.Shallow

/-- A directory of the store can be opened again, and nothing in it changes. The collections that
have been written to and can be read are there as they were, and no others. -/
theorem InStep.reopen (h : InStep directory s a written) (hs : s.WellFormed)
    (hwhole : ∀ name, ∀ d ∈ (s.view name).documents, d.Whole) (durability : Durability) :
    Archive.ofDirectory a.disk directory durability = (.ok { a with durability }, a.disk) ∧
      ∃ s', ofArchive { a with durability } = .ok s' ∧ ∀ name,
        (written name → s.Readable name →
          s'.collection? name = some { s.view name with revision := 0 }) ∧
        (¬ (written name ∧ s.Readable name) → s'.collection? name = none) := by
  have hfound := h.found
  rw [h.rooted] at hfound
  constructor
  · rw [Archive.ofDirectory]
    dsimp only
    rw [FileSystem.createDirectories_of_find? hfound, ← h.rooted]
  · obtain ⟨cs, hload, hmem⟩ := Archive.loadFiles_snapshots (a := { a with durability }) hs hwhole
      fun file text hfile => by
        obtain ⟨name, hw, rfl, hsnapped⟩ := h.only file text hfile
        exact ⟨name, h.named name (h.there name hw).1, rfl, hsnapped⟩
    have hall : Archive.loadAll { a with durability } = .ok cs :=
      Archive.loadAll_eq_ok.2 ⟨h.found, hload⟩
    -- what is found under a name is the collection of that name, and comes from its file
    have hfind : ∀ {name c}, Entries.find? name (Entries.ofList (cs.map fun c => (c.name, c))) = some c →
        c = { s.view name with revision := 0 } ∧ written name ∧ s.Readable name := by
      intro name c hc
      obtain ⟨c', hc', heq⟩ := List.mem_map.1 (Entries.mem_of_find?_ofList hc)
      cases heq
      obtain ⟨other, text, hfile, -, hreadable, heq⟩ := (hmem c).1 hc'
      have hother : c.name = other := (congrArg Collection.name heq).trans (hs other).2
      obtain ⟨third, hw, hthird, -⟩ := h.only _ text hfile
      rw [Archive.fileName_inj.1 hthird] at hother heq hreadable
      rw [hother]
      exact ⟨heq, hw, hreadable⟩
    refine ⟨_, by rw [ofArchive, hall]; rfl, fun name => ⟨fun hw hreadable => ?_, fun hnot => ?_⟩⟩
    · obtain ⟨text, hnode, -⟩ := h.filed name hw
      have hfile := FileSystem.mem_children.2 (FileSystem.mem_nodes_of_node? hnode)
      have hc : { s.view name with revision := 0 } ∈ cs :=
        (hmem _).2 ⟨name, text, hfile, h.named name (h.there name hw).1, hreadable, rfl⟩
      have hpair : (name, { s.view name with revision := 0 }) ∈ cs.map fun c => (c.name, c) :=
        List.mem_map.2 ⟨_, hc, Prod.ext (hs name).2 rfl⟩
      obtain ⟨c, hfound⟩ := Option.isSome_iff_exists.1 (Entries.isSome_find?_ofList hpair)
      rw [collection?, hfound, (hfind hfound).1]
    · rw [collection?, Option.eq_none_iff_forall_ne_some]
      intro c hc
      exact hnot (hfind hc).2

/-- What all values in the requests have in common, all in the documents have. -/
theorem Run.all {p : Json.Value → Prop} (hp : ∀ n : Int64, p (Json.ofInt64 n).value)
    (h : Run (Request.All p) s₀ s written) (hopen : OpenedNew directory s₀) : s.All p := by
  induction h with
  | start =>
    obtain ⟨a, hstep⟩ := hopen.inStep
    intro name d hd
    rw [hstep.blank name not_false] at hd
    cases hd
  | @answer s _ condition request hrun hrequest _ ih =>
    exact All.answer (s := s.under condition) hp ih (hrun.wellFormed hopen) hrequest

/-- The directory of a run that met no binary64 numbers can be opened again, and nothing in it
changes. A collection with documents has the same documents in the same order then, if none of them
is nested deeper than a reader follows, and only then. -/
theorem Run.reopened (h : Run (Request.All Json.Value.Whole) s₀ s written)
    (hopen : OpenedNew directory s₀) (durability : Durability) :
    ∃ a s', s.archive = some a ∧
      Archive.ofDirectory a.disk directory durability = (.ok { a with durability }, a.disk) ∧
      ofArchive { a with durability } = .ok s' ∧
      ∀ name, (s.view name).documents ≠ [] →
        ((s'.view name).documents = (s.view name).documents ↔ s.Readable name) := by
  obtain ⟨a, hstep⟩ := h.inStep hopen
  have hwhole := h.all (fun _ => trivial) hopen
  obtain ⟨hmade, s', hload, hcollections⟩ :=
    hstep.reopen (h.wellFormed hopen) hwhole durability
  refine ⟨a, s', hstep.durable, hmade, hload, fun name hsome => ?_⟩
  have hw : written name := by
    by_contra hnot
    exact hsome (hstep.blank name hnot)
  obtain ⟨hkept, hlost⟩ := hcollections name
  constructor
  · intro hsame
    by_contra hdeep
    rw [view, hlost fun h => hdeep h.2] at hsame
    exact hsome hsame.symm
  · intro hreadable
    rw [view, hkept hw hreadable]
    rfl

/-- A page is there again after opening. -/
theorem reopened_page : ∃ s written a s', OpenedNew "data" (cabinet none) ∧
    Run (Request.All Json.Value.Whole) (cabinet none) s written ∧ s.archive = some a ∧
    Archive.ofDirectory a.disk "data" .async = (.ok { a with durability := .async }, a.disk) ∧
    ofArchive { a with durability := .async } = .ok s' ∧
    (s'.view "pages").documents = [.page] := by
  have hdurable : Document.page.Durable := Document.all_ofList fun field hfield => by
    rw [List.mem_singleton.1 hfield]
    exact ⟨trivial, trivial⟩
  obtain ⟨hwhole, hshallow⟩ := Document.durable_iff.1 hdurable
  have hstart : Run (Request.All Json.Value.Whole) (cabinet none) (cabinet none) _ := .start
  have hrun := hstart.answer ⟨(Archive.drawer none).disk.now, none⟩ (.insertOne "pages" .page)
    hwhole nofun
  have hone : ∀ d, d ∈ [Document.page] → d.Shallow := fun d hd => by
    rwa [List.mem_singleton.1 hd]
  obtain ⟨a, s', ha, hmade, hload, hsame⟩ := hrun.reopened openedNew_cabinet .async
  exact ⟨_, _, a, s', openedNew_cabinet, hrun, ha, hmade, hload, (hsame "pages" nofun).2 hone⟩

end Store

/-! ## A document that is nested too deep -/

namespace Json

/-- Arrays within arrays. -/
def Value.nested : Nat → Value
  | 0 => .null
  | depth + 1 => .array [nested depth]

theorem Value.ordered_nested (depth : Nat) : (nested depth).Ordered := by
  induction depth with
  | zero => trivial
  | succ depth ih => exact ⟨ih, trivial⟩

theorem Value.whole_nested (depth : Nat) : (nested depth).Whole := by
  induction depth with
  | zero => trivial
  | succ depth ih => exact ⟨ih, trivial⟩

theorem Value.le_of_fits_nested {depth bound : Nat} (h : (nested depth).Fits bound) :
    depth ≤ bound := by
  induction depth generalizing bound with
  | zero => exact Nat.zero_le bound
  | succ depth ih =>
    obtain ⟨hpos, hinner, -⟩ := h
    have := ih hinner
    omega

end Json

/-- A document with arrays nested one deeper than a snapshot can keep. -/
def Document.chasm : Document :=
  .ofList [("id", .ofInt64 7), ("v", ⟨.nested 125, Json.Value.ordered_nested 125⟩)]

/-- The document is stored, and gone when the directory is opened again. -/
theorem Store.chasm_is_lost : OpenedNew "data" (cabinet none) ∧
    (Request.insertOne "pages" .chasm).All Json.Value.Whole ∧
    ∃ s a s', (cabinet none).answer (.insertOne "pages" .chasm) = (.ok (), s) ∧
      (s.view "pages").documents = [.chasm] ∧ s.archive = some a ∧
      Archive.ofDirectory a.disk "data" .sync = (.ok { a with durability := .sync }, a.disk) ∧
      ofArchive { a with durability := .sync } = .ok s' ∧ s'.collection? "pages" = none := by
  have hwhole : Document.chasm.All Json.Value.Whole := Document.all_ofList fun field hfield => by
    rcases List.mem_pair.1 hfield with rfl | rfl
    · trivial
    · exact Json.Value.whole_nested 125
  have hstart : Run (Request.All Json.Value.Whole) (cabinet none) (cabinet none) _ := .start
  have hrun := hstart.answer ⟨(Archive.drawer none).disk.now, none⟩ (.insertOne "pages" .chasm)
    hwhole nofun
  obtain ⟨a, hstep⟩ := hrun.inStep openedNew_cabinet
  obtain ⟨hmade, s', hload, hcollections⟩ := hstep.reopen (hrun.wellFormed openedNew_cabinet)
    (hrun.all (fun _ => trivial) openedNew_cabinet) .sync
  have hdeep : ¬ Document.chasm.Shallow := fun hshallow => by
    have hle := Json.Value.le_of_fits_nested (hshallow "v" (.nested 125) rfl)
    exact absurd hle (by decide)
  refine ⟨openedNew_cabinet, hwhole, _, a, s', Prod.ext rfl rfl, rfl, hstep.durable, hmade, hload,
    (hcollections "pages").2 fun ⟨_, hreadable⟩ => hdeep (hreadable _ List.mem_cons_self)⟩

end StepLedger

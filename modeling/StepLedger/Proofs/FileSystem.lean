import Mathlib.Data.List.Basic
import Mathlib.Tactic.ByContra
import StepLedger.FileSystem

/-!
# What files and directories become

To put a node at a place changes what stands there and nothing else. As long as no directory goes
away, a path that leads to a directory goes on doing so (`find?_mono`). To make the directories of a
path adds directories only (`createDirectories_adds`), and none if the path leads to a directory
already (`createDirectories_of_find?`). A file that comes or goes at a place changes nothing for a path
that leads elsewhere (`DifferAt.find?`).
-/

namespace StepLedger.FileSystem

variable {fs fs' : FileSystem} {place : Place}

/-! ## Nodes -/

theorem lookup_filter_ne {other : Place} (h : other ≠ place) (nodes : List (Place × Node)) :
    lookup other (nodes.filter (·.1 != place)) = lookup other nodes := by
  induction nodes with
  | nil => rfl
  | cons entry nodes ih =>
    obtain ⟨at_, node⟩ := entry
    by_cases hplace : at_ = place
    · subst hplace
      simpa [lookup, Ne.symm h] using ih
    · by_cases hother : at_ = other
      · subst hother
        simp [lookup, hplace]
      · simpa [lookup, hplace, hother] using ih

theorem node?_put_ne {other : Place} (h : other ≠ place) (node : Node) :
    (fs.put place node).node? other = fs.node? other := by
  rw [node?, node?, put, lookup, if_neg (Ne.symm h), remove, lookup_filter_ne h]

theorem node?_remove_ne {other : Place} (h : other ≠ place) :
    (fs.remove place).node? other = fs.node? other := by
  rw [node?, node?, remove, lookup_filter_ne h]

theorem lookup_filter_self (nodes : List (Place × Node)) :
    lookup place (nodes.filter (·.1 != place)) = none := by
  induction nodes with
  | nil => rfl
  | cons entry nodes ih =>
    obtain ⟨other, node⟩ := entry
    by_cases heq : other = place <;> simp [heq, lookup, ih]

theorem node?_put_self (h : ¬ (place = [] ∨ place = Place.root)) (node : Node) :
    (fs.put place node).node? place = some node := by
  rw [node?, if_neg h, put, lookup, if_pos rfl]

theorem node?_remove_self (h : ¬ (place = [] ∨ place = Place.root)) :
    (fs.remove place).node? place = none := by
  rw [node?, if_neg h, remove, lookup_filter_self]

/-- Directories stay where a node is put at a place that is none. -/
theorem isDirectory_put (hplace : fs.isDirectory place = false) (node : Node) {other : Place}
    (h : fs.isDirectory other = true) : (fs.put place node).isDirectory other = true := by
  have hne : other ≠ place := by
    rintro rfl
    rw [h] at hplace
    cases hplace
  rwa [isDirectory, node?_put_ne hne]

/-- Directories stay where what is taken away is none. -/
theorem isDirectory_remove (hplace : fs.isDirectory place = false) {other : Place}
    (h : fs.isDirectory other = true) : (fs.remove place).isDirectory other = true := by
  have hne : other ≠ place := by
    rintro rfl
    rw [h] at hplace
    cases hplace
  rwa [isDirectory, node?_remove_ne hne]

theorem directoryFault?_eq_none_iff :
    fs.directoryFault? place = none ↔ fs.isDirectory place = true := by
  rw [directoryFault?, isDirectory, decide_eq_true_iff]
  split <;> simp_all

/-! ## What a directory holds -/

theorem mem_of_lookup {node : Node} : ∀ {nodes : List (Place × Node)},
    lookup place nodes = some node → (place, node) ∈ nodes
  | (other, found) :: nodes, h => by
    rw [lookup] at h
    split at h
    · next heq => cases heq; cases h; exact List.mem_cons_self
    · exact List.mem_cons_of_mem _ (mem_of_lookup h)

theorem mem_nodes_of_node? {text : String} (h : fs.node? place = some (.file text)) :
    (place, .file text) ∈ fs.nodes := by
  rw [node?] at h
  split at h
  · cases h
  · exact mem_of_lookup h

theorem mem_children {name : String} {node : Node} :
    (name, node) ∈ fs.children place ↔ (place ++ [name], node) ∈ fs.nodes := by
  rw [children, List.mem_filterMap]
  constructor
  · rintro ⟨⟨other, node'⟩, hmem, h⟩
    dsimp only at h
    split at h
    · next last hlast =>
      split at h
      · next hplace =>
        cases h
        obtain ⟨before, rfl⟩ := List.getLast?_eq_some_iff.1 hlast
        rw [List.dropLast_concat] at hplace
        rwa [← hplace]
      · cases h
    · cases h
  · intro h
    refine ⟨_, h, ?_⟩
    simp

theorem mem_nodes_put {node : Node} {entry : Place × Node} :
    entry ∈ (fs.put place node).nodes ↔
      entry = (place, node) ∨ entry ∈ fs.nodes ∧ entry.1 ≠ place := by
  rw [put, remove, List.mem_cons, List.mem_filter, bne_iff_ne]

theorem mem_children_put {name other : String} {node node' : Node} :
    (other, node') ∈ (fs.put (place ++ [name]) node).children place ↔
      other = name ∧ node' = node ∨ (other, node') ∈ fs.children place ∧ other ≠ name := by
  rw [mem_children, mem_children, mem_nodes_put]
  simp

theorem mem_children_remove {name other : String} {node : Node} :
    (other, node) ∈ (fs.remove (place ++ [name])).children place ↔
      (other, node) ∈ fs.children place ∧ other ≠ name := by
  rw [mem_children, mem_children, remove, List.mem_filter, bne_iff_ne]
  simp

/-- To take something away leaves the rest of what a directory holds, in order. -/
theorem children_remove_sublist (goal : Place) :
    ((fs.remove goal).children place).Sublist (fs.children place) :=
  List.filter_sublist.filterMap _

/-- What is taken away from elsewhere was not in the directory. -/
theorem children_remove_ne {goal : Place} (h : ∀ name, goal ≠ place ++ [name]) :
    (fs.remove goal).children place = fs.children place := by
  rw [children, remove, List.filterMap_filter, children]
  refine List.filterMap_congr fun entry _ => ?_
  obtain ⟨other, node⟩ := entry
  by_cases heq : other = goal
  · subst heq
    rw [if_neg (by simp)]
    dsimp only
    split
    · next name hlast =>
      obtain ⟨before, rfl⟩ := List.getLast?_eq_some_iff.1 hlast
      refine (if_neg fun hplace => h name ?_).symm
      rw [← hplace, List.dropLast_concat]
    · rfl
  · rw [if_pos (bne_iff_ne.2 heq)]

theorem children_put_ne {goal : Place} (h : ∀ name, goal ≠ place ++ [name]) (node : Node) :
    (fs.put goal node).children place = fs.children place := by
  have hput : (fs.put goal node).remove goal = fs.remove goal := by
    rw [put, remove, List.filter_cons_of_neg (by simp), remove, List.filter_filter]
    simp
  calc (fs.put goal node).children place
      = ((fs.put goal node).remove goal).children place := (children_remove_ne h).symm
    _ = (fs.remove goal).children place := by rw [hput]
    _ = fs.children place := children_remove_ne h

/-- What is put into a directory is in it once. -/
theorem children_put_self (name : String) (node : Node) :
    (fs.put (place ++ [name]) node).children place =
      (name, node) :: (fs.remove (place ++ [name])).children place := by
  rw [children, put, List.filterMap_cons]
  simp [children]

/-- The names of what a directory holds are distinct if they were. -/
theorem nodup_children_put {name : String} (h : ((fs.children place).map Prod.fst).Nodup)
    (node : Node) : (((fs.put (place ++ [name]) node).children place).map Prod.fst).Nodup := by
  rw [children_put_self, List.map_cons, List.nodup_cons]
  refine ⟨fun hmem => ?_, h.sublist ((children_remove_sublist _).map _)⟩
  obtain ⟨⟨other, node'⟩, hmem, rfl⟩ := List.mem_map.1 hmem
  exact (mem_children_remove.1 hmem).2 rfl

/-! ## Following paths -/

theorem walk_cons_eq_ok {part : String} {parts : List String} {result : Place} :
    fs.walk place (part :: parts) = .ok result ↔ fs.isDirectory place = true ∧
      nameFault? part = none ∧ (fs.node? (Path.enter place part)).isSome ∧
      fs.walk (Path.enter place part) parts = .ok result := by
  rw [walk, ← directoryFault?_eq_none_iff]
  cases fs.directoryFault? place with
  | some fault => simp
  | none =>
    cases nameFault? part with
    | some fault => simp
    | none => by_cases hnode : (fs.node? (Path.enter place part)).isSome <;> simp [hnode]

theorem walk_append_eq_ok {parts others : List String} {result : Place} :
    fs.walk place (parts ++ others) = .ok result ↔
      ∃ between, fs.walk place parts = .ok between ∧ fs.walk between others = .ok result := by
  induction parts generalizing place with
  | nil => simp [walk]
  | cons part parts ih =>
    rw [List.cons_append, walk_cons_eq_ok, ih]
    simp only [walk_cons_eq_ok]
    constructor
    · rintro ⟨hdirectory, hname, hnode, between, hfirst, hrest⟩
      exact ⟨between, ⟨hdirectory, hname, hnode, hfirst⟩, hrest⟩
    · rintro ⟨between, ⟨hdirectory, hname, hnode, hfirst⟩, hrest⟩
      exact ⟨hdirectory, hname, hnode, between, hfirst, hrest⟩

/-- What follows a part of the path that can be followed is followed from there. -/
theorem walk_append {parts : List String} {between : Place}
    (h : fs.walk place parts = .ok between) (others : List String) :
    fs.walk place (parts ++ others) = fs.walk between others := by
  cases hrest : fs.walk between others with
  | ok result => exact walk_append_eq_ok.2 ⟨between, h, hrest⟩
  | error fault =>
    induction parts generalizing place with
    | nil => cases h; exact hrest
    | cons part parts ih =>
      obtain ⟨hdirectory, hname, hnode, hparts⟩ := walk_cons_eq_ok.1 h
      rw [List.cons_append, walk, directoryFault?_eq_none_iff.2 hdirectory, hname]
      exact (if_pos hnode).trans (ih hparts)

/-- Where a path to a directory begins is a directory. -/
theorem isDirectory_of_walk {parts : List String} {result : Place}
    (h : fs.walk place parts = .ok result) (hresult : fs.isDirectory result = true) :
    fs.isDirectory place = true := by
  cases parts with
  | nil => cases h; exact hresult
  | cons part parts => exact (walk_cons_eq_ok.1 h).1

/-- A path to a directory is followed as before as long as no directory goes away. -/
theorem walk_mono (hkept : ∀ place, fs.isDirectory place = true → fs'.isDirectory place = true)
    {parts : List String} {result : Place} (h : fs.walk place parts = .ok result)
    (hresult : fs.isDirectory result = true) : fs'.walk place parts = .ok result := by
  induction parts generalizing place with
  | nil => exact h
  | cons part parts ih =>
    obtain ⟨hdirectory, hname, -, hrest⟩ := walk_cons_eq_ok.1 h
    have hnext := hkept _ (isDirectory_of_walk hrest hresult)
    refine walk_cons_eq_ok.2 ⟨hkept place hdirectory, hname, ?_, ih hrest⟩
    rw [of_decide_eq_true hnext]
    rfl

theorem find?_eq_directory_iff {p : Path} : fs.find? p = some .directory ↔
    pathFault? p = none ∧ fs.walk p.start p.parts = .ok p.place ∧
      fs.isDirectory p.place = true := by
  rw [find?, isDirectory, decide_eq_true_iff]
  constructor
  · intro h
    split at h
    · next place hplace =>
      obtain rfl := eq_place_of_resolve hplace
      rw [resolve] at hplace
      split at hplace
      · cases hplace
      · next hfault => exact ⟨hfault, hplace, h⟩
    · cases h
  · rintro ⟨hfault, hwalk, hdirectory⟩
    simp only [resolve, hfault, hwalk]
    exact hdirectory

/-- A path leads to a directory as long as no directory goes away. -/
theorem find?_mono (hkept : ∀ place, fs.isDirectory place = true → fs'.isDirectory place = true)
    {p : Path} (h : fs.find? p = some .directory) : fs'.find? p = some .directory := by
  obtain ⟨hfault, hwalk, hdirectory⟩ := find?_eq_directory_iff.1 h
  exact find?_eq_directory_iff.2 ⟨hfault, walk_mono hkept hwalk hdirectory, hkept _ hdirectory⟩

/-! ## File systems that differ at one place -/

/-- The file systems differ at one place at most, and no directory stands there before or after. -/
structure DifferAt (fs fs' : FileSystem) (goal : Place) : Prop where
  node : ∀ place, place ≠ goal → fs'.node? place = fs.node? place
  before : fs.isDirectory goal = false
  after : fs'.isDirectory goal = false

/-- To put a file where no directory stands changes that place. -/
theorem differAt_put_file (h : ¬ (place = [] ∨ place = Place.root))
    (hplace : fs.isDirectory place = false) (text : String) :
    DifferAt fs (fs.put place (.file text)) place where
  node _ hne := node?_put_ne hne _
  before := hplace
  after := by
    rw [isDirectory, node?_put_self h]
    rfl

/-- To take away what is no directory changes its place. -/
theorem differAt_remove (h : ¬ (place = [] ∨ place = Place.root))
    (hplace : fs.isDirectory place = false) : DifferAt fs (fs.remove place) place where
  node _ hne := node?_remove_ne hne
  before := hplace
  after := by
    rw [isDirectory, node?_remove_self h]
    rfl

theorem DifferAt.symm {goal : Place} (h : DifferAt fs fs' goal) : DifferAt fs' fs goal :=
  ⟨fun place hne => (h.node place hne).symm, h.after, h.before⟩

/-- A path that leads elsewhere is followed as before: it does not go through the place. -/
theorem DifferAt.walk {goal : Place} (h : DifferAt fs fs' goal) {parts : List String} {result : Place}
    (hresult : result ≠ goal) (hwalk : fs.walk place parts = .ok result) :
    fs'.walk place parts = .ok result := by
  have hne : ∀ other, fs.isDirectory other = true → other ≠ goal := by
    rintro other hdirectory rfl
    rw [h.before] at hdirectory
    cases hdirectory
  induction parts generalizing place with
  | nil => exact hwalk
  | cons part parts ih =>
    obtain ⟨hdirectory, hname, hnode, hrest⟩ := walk_cons_eq_ok.1 hwalk
    have hnext : Path.enter place part ≠ goal := by
      cases parts with
      | nil => cases hrest; exact hresult
      | cons => exact hne _ (walk_cons_eq_ok.1 hrest).1
    refine walk_cons_eq_ok.2 ⟨?_, hname, ?_, ih hrest⟩
    · rwa [isDirectory, h.node place (hne place hdirectory)]
    · rwa [h.node _ hnext]

theorem DifferAt.resolve {goal : Place} (h : DifferAt fs fs' goal) {p : Path} (hp : p.place ≠ goal)
    (hresolve : fs.resolve p = .ok p.place) : fs'.resolve p = .ok p.place := by
  rw [FileSystem.resolve] at hresolve ⊢
  split at hresolve
  · cases hresolve
  · exact h.walk hp hresolve

/-- What stands at the end of a path that leads elsewhere is as before. -/
theorem DifferAt.find? {goal : Place} (h : DifferAt fs fs' goal) {p : Path} (hp : p.place ≠ goal) :
    fs'.find? p = fs.find? p := by
  rw [FileSystem.find?, FileSystem.find?]
  cases hresolve : fs.resolve p with
  | ok place =>
    obtain rfl := eq_place_of_resolve hresolve
    rw [h.resolve hp hresolve]
    exact h.node _ hp
  | error fault =>
    cases hresolve' : fs'.resolve p with
    | error => rfl
    | ok place =>
      obtain rfl := eq_place_of_resolve hresolve'
      cases hresolve.symm.trans (h.symm.resolve hp hresolve')

/-! ## Where a file would be put -/

theorem directoryOf_eq_ok {p : Path} {name : String} : fs.directoryOf p = .ok (place, name) ↔
    pathFault? p = none ∧ fs.walk p.start p.parts.dropLast = .ok place ∧
      name = p.parts.getLast?.getD "" ∧ fs.isDirectory place = true ∧ nameFault? name = none := by
  rw [directoryOf]
  constructor
  · intro h
    split at h
    · cases h
    · next hfault =>
      split at h
      · cases h
      · next hwalk =>
        dsimp only at h
        split at h
        · cases h
        · cases h
        · next hdirectory hname =>
          cases h
          exact ⟨hfault, hwalk, rfl, directoryFault?_eq_none_iff.1 hdirectory, hname⟩
  · rintro ⟨hfault, hwalk, rfl, hdirectory, hname⟩
    simp [hfault, hwalk, directoryFault?_eq_none_iff.2 hdirectory, hname]

/-- A file is put where its path says, in a directory that is there, and not over a directory. -/
theorem target_eq_ok {p : Path} : fs.target p = .ok place ↔ ∃ between name,
    fs.directoryOf p = .ok (between, name) ∧ ¬ (Path.isIdle name ∨ name = "..") ∧
      place = between ++ [name] ∧ fs.isDirectory place = false := by
  rw [target]
  constructor
  · intro h
    split at h
    · cases h
    · cases h
    · next between name hof =>
      split at h
      · cases h
      · next hname =>
        split at h
        · cases h
        · next hnone =>
          cases h
          exact ⟨between, name, hof, hname, rfl, Bool.not_eq_true _ ▸ hnone⟩
  · rintro ⟨between, name, hof, hname, rfl, hnone⟩
    rw [hof]
    simp [hname, hnone]

/-- A file is put where the path leads. -/
theorem eq_place_of_target {p : Path} (h : fs.target p = .ok place) : place = p.place := by
  obtain ⟨between, name, hof, hname, rfl, -⟩ := target_eq_ok.1 h
  obtain ⟨-, hwalk, rfl, -, -⟩ := directoryOf_eq_ok.1 hof
  rw [not_or] at hname
  cases hlast : p.parts.getLast? with
  | none =>
    rw [hlast] at hname
    exact absurd rfl hname.1
  | some last =>
    obtain ⟨before, hparts⟩ := List.getLast?_eq_some_iff.1 hlast
    rw [hparts, List.dropLast_concat] at hwalk
    rw [hlast, Option.getD_some] at hname
    rw [Option.getD_some]
    rw [Path.place, hparts, List.foldl_append, eq_foldl_of_walk hwalk]
    simp [Path.enter, hname]

/-- A file that is no directory changes nothing of where others are put. -/
theorem target_of_put {p : Path} {other : Place} (hother : fs.isDirectory other = false)
    {text : String} (h : (fs.put other (.file text)).target p = .ok place) :
    fs.target p = .ok place := by
  have hkept : ∀ place, (fs.put other (.file text)).isDirectory place = true →
      fs.isDirectory place = true := by
    intro place hplace
    by_cases hne : place = other
    · subst hne
      by_cases hroot : place = [] ∨ place = Place.root
      · simp [isDirectory, node?, hroot] at hother
      · simp [isDirectory, node?, hroot, put, lookup] at hplace
    · rwa [isDirectory, node?_put_ne hne] at hplace
  obtain ⟨between, name, hof, hname, rfl, hnone⟩ := target_eq_ok.1 h
  obtain ⟨hfault, hwalk, hlast, hdirectory, hlong⟩ := directoryOf_eq_ok.1 hof
  have hof' : fs.directoryOf p = .ok (between, name) := directoryOf_eq_ok.2
    ⟨hfault, walk_mono hkept hwalk hdirectory, hlast, hkept _ hdirectory, hlong⟩
  refine target_eq_ok.2 ⟨between, name, hof', hname, rfl, ?_⟩
  by_contra htrue
  rw [Bool.not_eq_false] at htrue
  rw [isDirectory_put hother _ htrue] at hnone
  cases hnone

/-- Nor does a file keep others from being put where they were to be. -/
theorem target_put {p : Path} {other : Place} (hother : fs.isDirectory other = false) {text : String}
    (h : fs.target p = .ok place) : (fs.put other (.file text)).target p = .ok place := by
  have hkept : ∀ place, fs.isDirectory place = true →
      (fs.put other (.file text)).isDirectory place = true :=
    fun _ hplace => isDirectory_put hother _ hplace
  have hroot : ¬ (other = [] ∨ other = Place.root) := by
    intro hroot
    rw [isDirectory, node?, if_pos hroot] at hother
    cases hother
  obtain ⟨between, name, hof, hname, rfl, hnone⟩ := target_eq_ok.1 h
  obtain ⟨hfault, hwalk, hlast, hdirectory, hlong⟩ := directoryOf_eq_ok.1 hof
  have hof' : (fs.put other (.file text)).directoryOf p = .ok (between, name) := directoryOf_eq_ok.2
    ⟨hfault, walk_mono hkept hwalk hdirectory, hlast, hkept _ hdirectory, hlong⟩
  refine target_eq_ok.2 ⟨between, name, hof', hname, rfl, ?_⟩
  by_cases heq : between ++ [name] = other
  · rw [heq, isDirectory, node?_put_self hroot]
    rfl
  · rw [isDirectory, node?_put_ne heq]
    exact hnone

/-! ## Names that are new -/

theorem le_foldl_length (names : List String) (n : Nat) :
    n ≤ names.foldl (fun longest name => max longest name.length) n ∧
      ∀ name ∈ names, name.length ≤ names.foldl (fun longest name => max longest name.length) n := by
  induction names generalizing n with
  | nil => simp
  | cons name names ih =>
    obtain ⟨hle, hall⟩ := ih (max n name.length)
    rw [List.foldl_cons]
    refine ⟨Nat.le_trans (Nat.le_max_left _ _) hle, fun other hother => ?_⟩
    rcases List.mem_cons.1 hother with rfl | hother
    · exact Nat.le_trans (Nat.le_max_right _ _) hle
    · exact hall other hother

theorem le_foldl_foldl_length (nodes : List (Place × Node)) (n : Nat) :
    n ≤ nodes.foldl (fun longest entry =>
        entry.1.foldl (fun longest name => max longest name.length) longest) n ∧
      ∀ entry ∈ nodes, ∀ name ∈ entry.1, name.length ≤ nodes.foldl (fun longest entry =>
        entry.1.foldl (fun longest name => max longest name.length) longest) n := by
  induction nodes generalizing n with
  | nil => simp
  | cons entry nodes ih =>
    obtain ⟨hfirst, hnames⟩ := le_foldl_length entry.1 n
    obtain ⟨hle, hall⟩ := ih (entry.1.foldl (fun longest name => max longest name.length) n)
    rw [List.foldl_cons]
    refine ⟨Nat.le_trans hfirst hle, fun other hother name hname => ?_⟩
    rcases List.mem_cons.1 hother with rfl | hother
    · exact Nat.le_trans (hnames name hname) hle
    · exact hall other hother name hname

/-- The new name is longer than the others. -/
theorem length_freshName : 4 + fs.nodes.foldl (fun longest entry =>
      entry.1.foldl (fun longest name => max longest name.length) longest) 0 =
    fs.freshName.length := by
  have hlength : ∀ n, (String.ofList (List.replicate n 'x')).length = n := fun n => by
    rw [String.length_ofList, List.length_replicate]
  rw [freshName, String.length_append, hlength]
  rfl

/-- Nothing has the new name. -/
theorem freshName_notMem {entry : Place × Node} (h : entry ∈ fs.nodes) :
    fs.freshName ∉ entry.1 := by
  intro hname
  have hle := (le_foldl_foldl_length fs.nodes 0).2 entry h _ hname
  rw [← length_freshName] at hle
  omega

theorem ne_append_freshName {entry : Place × Node} (h : entry ∈ fs.nodes) :
    entry.1 ≠ place ++ [fs.freshName] := fun heq =>
  freshName_notMem h (heq ▸ List.mem_append_right _ List.mem_cons_self)

theorem remove_of_new (h : ∀ entry ∈ fs.nodes, entry.1 ≠ place) : fs.remove place = fs := by
  obtain ⟨nodes⟩ := fs
  rw [remove, List.filter_eq_self.2 fun entry hentry => bne_iff_ne.2 (h entry hentry)]

/-- A node at a new place is taken away without a trace. -/
theorem remove_put (h : ∀ entry ∈ fs.nodes, entry.1 ≠ place) (node : Node) :
    (fs.put place node).remove place = fs := by
  rw [put, remove_of_new h, remove, List.filter_cons_of_neg (by simp)]
  exact remove_of_new h

theorem append_freshName_ne_root (place : Place) :
    ¬ (place ++ [fs.freshName] = [] ∨ place ++ [fs.freshName] = Place.root) := by
  rintro (heq | heq)
  · exact List.append_ne_nil_of_right_ne_nil place (List.cons_ne_nil _ _) heq
  · have hname : fs.freshName ∈ place ++ [fs.freshName] :=
      List.mem_append_right place List.mem_cons_self
    rw [heq] at hname
    have hlength : _ = fs.freshName.length := length_freshName
    have hone : ("/" : String).length = 1 := rfl
    rw [List.mem_singleton.1 hname] at hlength
    omega

theorem lookup_of_new : ∀ {nodes : List (Place × Node)}, (∀ entry ∈ nodes, entry.1 ≠ place) →
    lookup place nodes = none
  | [], _ => rfl
  | (_, _) :: _, h => by
    rw [lookup, if_neg (h _ List.mem_cons_self),
      lookup_of_new fun entry hentry => h entry (List.mem_cons_of_mem _ hentry)]

theorem isDirectory_freshName (place : Place) :
    fs.isDirectory (place ++ [fs.freshName]) = false := by
  rw [isDirectory, node?, if_neg (append_freshName_ne_root place),
    lookup_of_new fun _ => ne_append_freshName]
  rfl

theorem node?_put_freshName (node : Node) :
    (fs.put (place ++ [fs.freshName]) node).node? (place ++ [fs.freshName]) = some node := by
  rw [node?, if_neg (append_freshName_ne_root place), put, lookup, if_pos rfl]

theorem put_put (node node' : Node) : (fs.put place node).put place node' = fs.put place node' := by
  rw [put, put, put, remove, List.filter_cons_of_neg (by simp), remove, List.filter_filter]
  simp

/-! ## Making directories -/

/-- To make a directory adds one. -/
theorem createDirectory_adds {p : Path} (h : fs.createDirectory p = .ok fs') :
    ∀ entry ∈ fs'.nodes, entry ∈ fs.nodes ∨ entry.2 = .directory := by
  rw [createDirectory] at h
  split at h
  · cases h
  · split at h
    · cases h
    · cases h
      intro entry hentry
      rcases mem_nodes_put.1 hentry with rfl | ⟨hold, -⟩
      · exact .inr rfl
      · exact .inl hold

theorem snd_orPresent (p : Path) (fault : Fault) : (fs.orPresent p fault).2 = fs := by
  rw [orPresent]
  split <;> rfl

theorem createAlong_adds (ps : List Path) :
    ∀ entry ∈ (fs.createAlong ps).2.nodes, entry ∈ fs.nodes ∨ entry.2 = .directory := by
  induction ps with
  | nil => exact fun entry hentry => .inl hentry
  | cons p ps ih =>
    rw [createAlong]
    split
    · next hmade => exact createDirectory_adds hmade
    · split
      · next habove => rw [habove] at ih; exact ih
      · next fs₁ habove =>
        rw [habove] at ih
        split
        · next hmade =>
          intro entry hentry
          rcases createDirectory_adds hmade entry hentry with hold | hnew
          · exact ih entry hold
          · exact .inr hnew
        · next fault _ => rw [snd_orPresent]; exact ih
    · next fault _ _ => rw [snd_orPresent]; exact fun entry hentry => .inl hentry

/-- To make the directories of a path adds directories only. -/
theorem createDirectories_adds (p : Path) :
    ∀ entry ∈ (fs.createDirectories p).2.nodes, entry ∈ fs.nodes ∨ entry.2 = .directory :=
  createAlong_adds p.ancestors

/-! ## Directories that are there -/

/-- Only the empty path is relative and begins with nothing. -/
theorem eq_empty_of_head?_ofText {text : String} (habsolute : (Path.ofText text).absolute = false)
    (hhead : (Path.ofText text).parts.head? = some "") : text = "" := by
  rw [Path.ofText] at habsolute hhead
  split at habsolute
  · cases habsolute
  · next hslash =>
    split at hhead
    · next heq => exact absurd heq (hslash _)
    · cases htext : text.toList with
      | nil => exact String.toList_injective htext
      | cons c rest =>
        have hc : c ≠ '/' := fun hc => hslash rest (hc ▸ htext)
        rw [htext, Text.split, if_neg hc] at hhead
        have hne : ∀ part : List Char, String.ofList (c :: part) ≠ "" := fun part heq => by
          simpa using congrArg String.toList heq
        split at hhead
        · exact absurd (Option.some.inj hhead) (hne _)
        · exact absurd (Option.some.inj hhead) (hne _)

theorem parts_ofText_ne_nil (text : String) : (Path.ofText text).parts ≠ [] := by
  rw [Path.ofText]
  split
  · exact fun h => Text.split_ne_nil _ _ (List.map_eq_nil_iff.1 h)
  · exact fun h => Text.split_ne_nil _ _ (List.map_eq_nil_iff.1 h)

/-- The parts of a path before the empty ones at its end. -/
theorem exists_blanks (parts : List String) : ∃ kept blanks : List String, parts = kept ++ blanks ∧
    (parts.reverse.dropWhile (· = "")).reverse = kept ∧ kept.getLast? ≠ some "" ∧
    ∀ part ∈ blanks, part = "" := by
  refine ⟨_, (parts.reverse.takeWhile (· = "")).reverse, ?_, rfl, fun hlast => ?_,
    fun part hpart => ?_⟩
  · rw [← List.reverse_append, List.takeWhile_append_dropWhile, List.reverse_reverse]
  · have hfirst := List.head?_dropWhile_not (fun part : String => decide (part = "")) parts.reverse
    rw [List.getLast?_reverse] at hlast
    rw [hlast] at hfirst
    cases hfirst
  · rw [List.mem_reverse] at hpart
    exact of_decide_eq_true (List.all_eq_true.1 List.all_takeWhile part hpart)

/-- A path that does not end with an empty part has an empty text only if it has no parts. -/
theorem eq_nil_of_text {absolute : Bool} {parts : List String}
    (hlast : parts.getLast? ≠ some "") (h : (Path.mk absolute parts).text = "") :
    absolute = false ∧ parts = [] := by
  rw [Path.text, String.append_eq_empty_iff] at h
  obtain ⟨hstart, hparts⟩ := h
  refine ⟨by cases absolute <;> simp_all, ?_⟩
  rcases List.eq_nil_or_concat parts with rfl | ⟨before, last, rfl⟩
  · rfl
  · rw [List.concat_eq_append] at hlast hparts
    rw [List.getLast?_concat, ne_eq, Option.some.injEq] at hlast
    by_cases hbefore : before = []
    · subst hbefore
      rw [List.nil_append, String.intercalate_singleton] at hparts
      exact absurd hparts hlast
    · rw [String.intercalate_append_of_ne_nil hbefore (List.cons_ne_nil _ _),
        String.append_eq_empty_iff, String.append_eq_empty_iff] at hparts
      exact absurd hparts.1.2 (by decide)

/-- Without the empty parts at its end, a path that is written is empty only if it is so with them. -/
theorem pathFault?_ne_notFound {text : String} {kept blanks : List String}
    (hpath : pathFault? (Path.ofText text) = none)
    (hparts : (Path.ofText text).parts = kept ++ blanks) (hlast : kept.getLast? ≠ some "")
    (hblanks : ∀ part ∈ blanks, part = "") :
    pathFault? { Path.ofText text with parts := kept } ≠ some .notFound := by
  intro hfault
  rw [pathFault?] at hfault
  split at hfault
  · cases hfault
  · split at hfault
    · next hempty =>
      obtain ⟨habsolute, rfl⟩ := eq_nil_of_text hlast hempty
      have hhead : (Path.ofText text).parts.head? = some "" := by
        obtain ⟨part, parts, hcons⟩ := List.exists_cons_of_ne_nil (parts_ofText_ne_nil text)
        rw [hparts, List.nil_append] at hcons
        rw [hparts, List.nil_append, hcons, List.head?_cons,
          hblanks part (hcons ▸ List.mem_cons_self)]
      rw [eq_empty_of_head?_ofText habsolute hhead] at hpath
      exact absurd hpath (by decide)
    · split at hfault <;> cases hfault

/-- A directory that is there is not made again, and not for want of those above it. -/
theorem createDirectory_of_find? {text : String}
    (h : fs.find? (Path.ofText text) = some .directory) :
    ∃ fault, fault ≠ .notFound ∧ fs.createDirectory (Path.ofText text) = .error fault := by
  obtain ⟨hpath, hwalk, hdirectory⟩ := find?_eq_directory_iff.1 h
  obtain ⟨kept, blanks, hparts, hkept, hlast, hblanks⟩ := exists_blanks (Path.ofText text).parts
  rw [createDirectory, hkept]
  cases hfault : pathFault? { Path.ofText text with parts := kept } with
  | some fault =>
    refine ⟨fault, ?_, by rw [directoryOf, hfault]⟩
    rintro rfl
    exact pathFault?_ne_notFound hpath hparts hlast hblanks hfault
  | none =>
    refine ⟨.alreadyExists, nofun, ?_⟩
    rw [hparts] at hwalk
    obtain ⟨between, hfirst, hrest⟩ := walk_append_eq_ok.1 hwalk
    have hbetween := isDirectory_of_walk hrest hdirectory
    rcases List.eq_nil_or_concat kept with rfl | ⟨before, last, rfl⟩
    · rw [directoryOf_eq_ok.2 ⟨hfault, hfirst, rfl, hbetween, rfl⟩]
      refine if_pos ?_
      rw [show Path.enter between (([] : List String).getLast?.getD "") = between from rfl,
        of_decide_eq_true hbetween]
      rfl
    · rw [List.concat_eq_append] at hfirst hfault ⊢
      obtain ⟨m, hbefore, hstep⟩ := walk_append_eq_ok.1 hfirst
      obtain ⟨hm, hname, hnode, -⟩ := walk_cons_eq_ok.1 hstep
      have hof : fs.directoryOf ⟨(Path.ofText text).absolute, before ++ [last]⟩ = .ok (m, last) :=
        directoryOf_eq_ok.2 ⟨hfault, by rwa [List.dropLast_concat],
          by rw [List.getLast?_concat]; rfl, hm, hname⟩
      rw [hof]
      exact if_pos hnode

/-- To make the directories of a path to a directory changes nothing. -/
theorem createDirectories_of_find? {text : String}
    (h : fs.find? (Path.ofText text) = some .directory) :
    fs.createDirectories (Path.ofText text) = (.ok (), fs) := by
  obtain ⟨fault, hne, hfault⟩ := createDirectory_of_find? h
  obtain ⟨hpath, -, -⟩ := find?_eq_directory_iff.1 h
  have htext : (Path.ofText text).text ≠ "" := by
    intro htext
    rw [pathFault?, htext] at hpath
    exact absurd hpath (by decide)
  rw [createDirectories, Path.ancestors, List.filter_cons_of_pos (by rwa [decide_eq_true_iff]),
    createAlong, hfault]
  cases fault with
  | notFound => exact absurd rfl hne
  | _ => exact if_pos h

end StepLedger.FileSystem

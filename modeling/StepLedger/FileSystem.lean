import StepLedger.FileSystem.Path

/-!
# Files and directories

A `FileSystem` is a set of files and directories, each at a place. What an operation of the system
may refuse is a `Fault`.

A path is followed part by part (`FileSystem.resolve`): whatever a part is looked up in has to be a
directory, also for a part that leads back or nowhere. If it can be followed it leads to its place
(`eq_place_of_resolve`). `FileSystem.target` is where a path would put a file, and
`FileSystem.createDirectories` makes a directory with those above it.
-/

namespace StepLedger

/-- What stands at a place. -/
inductive Node where
  | file (text : String)
  | directory
deriving DecidableEq, Repr

/-- Why the system refuses an operation on files. -/
inductive Fault where
  | notFound
  | alreadyExists
  | isDirectory
  | notDirectory
  | nameTooLong
  | nulInName
  | invalidArgument
  | busy
  | noSpace
deriving DecidableEq, Repr

/-- The fault in the words of the system. -/
def Fault.message : Fault → String
  | .notFound => "No such file or directory (os error 2)"
  | .alreadyExists => "File exists (os error 17)"
  | .isDirectory => "Is a directory (os error 21)"
  | .notDirectory => "Not a directory (os error 20)"
  | .nameTooLong => "File name too long (os error 36)"
  | .nulInName => "file name contained an unexpected NUL byte"
  | .invalidArgument => "Invalid argument (os error 22)"
  | .busy => "Device or resource busy (os error 16)"
  | .noSpace => "No space left on device (os error 28)"

/-- Files and directories by place. -/
structure FileSystem where
  nodes : List (Place × Node)
deriving Repr

namespace FileSystem

/-- Nothing but the directory in which everything lies. -/
def empty : FileSystem := ⟨[]⟩

/-! ## Nodes -/

/-- The node of the first pair with a place. -/
def lookup (place : Place) : List (Place × Node) → Option Node
  | [] => none
  | (other, node) :: nodes => if other = place then some node else lookup place nodes

/-- What stands at a place. -/
def node? (fs : FileSystem) (place : Place) : Option Node :=
  if place = [] ∨ place = Place.root then some .directory else lookup place fs.nodes

/-- Whether a directory stands at a place. -/
def isDirectory (fs : FileSystem) (place : Place) : Bool := fs.node? place = some .directory

/-- Take away what stands at a place. -/
def remove (fs : FileSystem) (place : Place) : FileSystem :=
  ⟨fs.nodes.filter (·.1 != place)⟩

/-- Put a node at a place instead of what stands there. -/
def put (fs : FileSystem) (place : Place) (node : Node) : FileSystem :=
  ⟨(place, node) :: (fs.remove place).nodes⟩

/-- Take away what stands at a place and below it. -/
def removeTree (fs : FileSystem) (place : Place) : FileSystem :=
  ⟨fs.nodes.filter fun entry => !place.isPrefixOf entry.1⟩

/-- What a directory holds, with the name of each. -/
def children (fs : FileSystem) (place : Place) : List (String × Node) :=
  fs.nodes.filterMap fun (other, node) =>
    match other.getLast? with
    | some name => if other.dropLast = place then some (name, node) else none
    | none => none

/-- A file name that nothing in the file system has: it is longer than any of them. -/
def freshName (fs : FileSystem) : String :=
  let longest := fs.nodes.foldl (fun longest entry =>
    entry.1.foldl (fun longest name => max longest name.length) longest) 0
  ".tmp" ++ String.ofList (List.replicate longest 'x')

/-! ## Paths -/

/-- The fault of using a place as a directory, if there is one. -/
def directoryFault? (fs : FileSystem) (place : Place) : Option Fault :=
  match fs.node? place with
  | some .directory => none
  | some (.file _) => some .notDirectory
  | none => some .notFound

/-- The fault of a name that no file or directory can have, if it is one. -/
def nameFault? (name : String) : Option Fault :=
  if 255 < name.utf8ByteSize then some .nameTooLong else none

/-- The fault of a path that the system does not follow at all, if it is one. -/
def pathFault? (p : Path) : Option Fault :=
  if p.text.toList.contains '\x00' then some .nulInName
  else if p.text = "" then some .notFound
  else if 4095 < p.text.utf8ByteSize then some .nameTooLong
  else none

/-- Follow the parts of a path from a place. -/
def walk (fs : FileSystem) (place : Place) : List String → Except Fault Place
  | [] => .ok place
  | part :: parts =>
    match fs.directoryFault? place, nameFault? part with
    | some fault, _ => .error fault
    | none, some fault => .error fault
    | none, none =>
      if (fs.node? (Path.enter place part)).isSome then walk fs (Path.enter place part) parts
      else .error .notFound

/-- The place to which a path leads; something stands there. -/
def resolve (fs : FileSystem) (p : Path) : Except Fault Place :=
  match pathFault? p with
  | some fault => .error fault
  | none => fs.walk p.start p.parts

theorem eq_foldl_of_walk {fs : FileSystem} {place result : Place} {parts : List String}
    (h : fs.walk place parts = .ok result) : result = parts.foldl Path.enter place := by
  induction parts generalizing place with
  | nil => simpa [walk] using h.symm
  | cons part parts ih =>
    rw [walk] at h
    split at h
    · cases h
    · cases h
    · split at h
      · exact ih h
      · cases h

theorem eq_place_of_resolve {fs : FileSystem} {p : Path} {result : Place}
    (h : fs.resolve p = .ok result) : result = p.place := by
  rw [resolve] at h
  split at h
  · cases h
  · exact eq_foldl_of_walk h

/-- What stands at the end of a path. -/
def find? (fs : FileSystem) (p : Path) : Option Node :=
  match fs.resolve p with
  | .ok place => fs.node? place
  | .error _ => none

/-- The directory that a path leads to with all parts but the last, and the last. -/
def directoryOf (fs : FileSystem) (p : Path) : Except Fault (Place × String) :=
  match pathFault? p with
  | some fault => .error fault
  | none =>
    match fs.walk p.start p.parts.dropLast with
    | .error fault => .error fault
    | .ok place =>
      let last := p.parts.getLast?.getD ""
      match fs.directoryFault? place, nameFault? last with
      | some fault, _ => .error fault
      | none, some fault => .error fault
      | none, none => .ok (place, last)

/-- The place where a path would put a file: its directory exists, and there is no directory with
its name. A path with a NUL is an argument that makes no sense. -/
def target (fs : FileSystem) (p : Path) : Except Fault Place :=
  match fs.directoryOf p with
  | .error .nulInName => .error .invalidArgument
  | .error fault => .error fault
  | .ok (place, name) =>
    if Path.isIdle name ∨ name = ".." then .error .busy
    else if fs.isDirectory (place ++ [name]) then .error .isDirectory
    else .ok (place ++ [name])

/-- Make a directory in one that exists. -/
def createDirectory (fs : FileSystem) (p : Path) : Except Fault FileSystem :=
  match fs.directoryOf { p with parts := (p.parts.reverse.dropWhile (· = "")).reverse } with
  | .error fault => .error fault
  | .ok (place, name) =>
    if (fs.node? (Path.enter place name)).isSome then .error .alreadyExists
    else .ok (fs.put (place ++ [name]) .directory)

/-- The outcome of making a directory that met a fault: the directory may be there already. -/
def orPresent (fs : FileSystem) (p : Path) (fault : Fault) : Except Fault Unit × FileSystem :=
  if fs.find? p = some .directory then (.ok (), fs) else (.error fault, fs)

/-- Make the directory of the first path, with those of the following paths as far as they are
missing. What was made before a failure stays. -/
def createAlong (fs : FileSystem) : List Path → Except Fault Unit × FileSystem
  | [] => (.ok (), fs)
  | p :: above =>
    match fs.createDirectory p with
    | .ok fs => (.ok (), fs)
    | .error .notFound =>
      match createAlong fs above with
      | (.error fault, fs) => (.error fault, fs)
      | (.ok (), fs) =>
        match fs.createDirectory p with
        | .ok fs => (.ok (), fs)
        | .error fault => fs.orPresent p fault
    | .error fault => fs.orPresent p fault

/-- Make the directory of a path and those above it, as far as they are missing. -/
def createDirectories (fs : FileSystem) (p : Path) : Except Fault Unit × FileSystem :=
  fs.createAlong p.ancestors

end FileSystem

end StepLedger

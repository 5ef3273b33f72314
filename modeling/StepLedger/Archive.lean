import StepLedger.Disk
import StepLedger.Snapshot

/-!
# Archives

An `Archive` keeps collections in a directory of a disk, the snapshot of each in a file of its own.
The file has the name of the collection with the extension `json`, which takes the place of an
extension that the name itself has (`Archive.file`).

`Archive.save` writes a collection, `Archive.load` reads one back and `Archive.delete` removes one.
`Archive.loadAll` reads every file that is called `<name>.json` and holds a collection of that name;
other files are passed over.
-/

namespace StepLedger

/-- Whether a file is forced to the device before it replaces the old one. -/
inductive Durability where
  | sync
  | async
deriving DecidableEq, Repr

/-- A directory of snapshots. -/
structure Archive where
  disk : Disk
  /-- The directory, as it was named. -/
  directory : Path
  durability : Durability

namespace Archive

/-! ## Names of files -/

/-- The extension of the name of a snapshot. -/
def extension : String := "json"

/-- The file of a collection. -/
def file (a : Archive) (collection : String) : Path :=
  (a.directory.join (Path.ofText collection)).withExtension extension

/-- The name of the collection that a file may hold. -/
def collection? (file : String) : Option String :=
  match Path.cutExtension? file with
  | some (name, extension) => if extension = Archive.extension then some name else none
  | none => none

/-! ## Opening -/

/-- The archive in a directory, which is made if need be. -/
def ofDirectory (disk : Disk) (directory : String) (durability : Durability) :
    Except StoreError Archive × Disk :=
  let path := Path.ofText directory
  match disk.files.createDirectories path with
  | (.ok (), files) =>
    let disk := { disk with files }
    (.ok ⟨disk, path, durability⟩, disk)
  | (.error fault, files) =>
    (.error (.storeUnavailable (.createDirectory directory fault)), { disk with files })

/-! ## One collection -/

/-- Write the snapshot of a collection. -/
def save (a : Archive) (c : Collection) : Except StoreError Unit × Archive :=
  let text := (Snapshot.ofCollection a.disk.now c).text
  let (result, disk) := a.disk.replace a.directory (a.file c.name) (a.durability = .sync) text
  (result, { a with disk })

/-- The snapshot in a node of the file system. -/
def read (node : Node) : Except DecodeError Snapshot :=
  match node with
  | .directory => .error (.unreadable .isDirectory)
  | .file text =>
    match Snapshot.ofText? text with
    | some snapshot => .ok snapshot
    | none => .error .notSnapshot

/-- The collection of a snapshot that was read from the file shown. -/
def restore (shown : String) (s : Snapshot) : Except StoreError Collection :=
  if s.version = Snapshot.currentVersion then Collection.ofDocuments s.collection s.documents
  else .error (.serialization (.unsupportedVersion s.version.toNat shown))

/-- Read the collection in the file of a name, if there is such a file. -/
def load (a : Archive) (collection : String) : Except StoreError (Option Collection) :=
  match a.disk.files.find? (a.file collection) with
  | none => .ok none
  | some node => do
    let snapshot ← (read node).mapError .serialization
    return some (← restore (a.file collection).text snapshot)

/-- Take the file of a collection away, if there is one. -/
def delete (a : Archive) (collection : String) : Except StoreError Unit × Archive :=
  match a.disk.files.find? (a.file collection) with
  | none => (.ok (), a)
  | some _ =>
    match a.disk.delete (a.file collection) with
    | .ok disk => (.ok (), { a with disk })
    | .error fault => (.error (.storeUnavailable (.delete fault)), a)

/-! ## All collections -/

/-- The snapshot that a node holds, if it is one of the collection after which the file is named. -/
def genuine? (file : String) (node : Node) : Option Snapshot :=
  match collection? file, read node with
  | some name, .ok snapshot => if snapshot.collection = name then some snapshot else none
  | _, _ => none

/-- The collections in some files. -/
def loadFiles (a : Archive) : List (String × Node) → Except StoreError (List Collection)
  | [] => .ok []
  | (file, node) :: files =>
    match genuine? file node with
    | none => loadFiles a files
    | some snapshot => do
      let c ← restore (a.directory.join ⟨false, [file]⟩).text snapshot
      return c :: (← loadFiles a files)

/-- The collections in the directory. -/
def loadAll (a : Archive) : Except StoreError (List Collection) :=
  match a.disk.files.resolve a.directory with
  | .error fault => .error (.storeUnavailable (.list fault))
  | .ok place =>
    match a.disk.files.directoryFault? place with
    | some fault => .error (.storeUnavailable (.list fault))
    | none => a.loadFiles (a.disk.files.children place)

end Archive

end StepLedger

import StepLedger.FileSystem
import StepLedger.Error

/-!
# The disk

A `Disk` is a file system with the present time and the part of a device that may be out of order.
`Disk.replace` exchanges the text of a file as a whole: it writes a new file under a temporary name
in the same directory and gives it the name of the old one. Whichever part of that fails, the
temporary file is taken away again and the old file stays.

A text goes through a buffer. As long as it fits there, nothing of it reaches the device before it is
flushed; of a longer text the device has to take a part while the rest is still being composed
(`Disk.spill`), and if it refuses that, the failure is one of composing the text.
-/

namespace StepLedger

/-- The operations on single files that a disk may refuse. -/
inductive Disk.Operation where
  | create
  /-- To take any part of a text. -/
  | write
  /-- To take the last part of a text, the one that the buffer holds when all is composed. -/
  | flush
  /-- To force what a file holds to the device. -/
  | sync
  | rename
  | delete
deriving DecidableEq, Repr

/-- Files, the time of day, and the operation that the device refuses at present, if any. -/
structure Disk where
  files : FileSystem
  now : Calendar.Instant
  refused : Option Disk.Operation

namespace Disk

/-- The fault of a refused operation. -/
def check (d : Disk) (operation : Operation) : Except Fault Unit :=
  if d.refused = some operation then .error .noSpace else .ok ()

/-- Begin an empty file under a new name in a directory. -/
def createTemporary (d : Disk) (directory : Path) : Except Fault (Place × Disk) := do
  d.check .create
  let place ← d.files.resolve directory
  match d.files.directoryFault? place with
  | some fault => throw fault
  | none =>
    let temporary := place ++ [d.files.freshName]
    return (temporary, { d with files := d.files.put temporary (.file "") })

/-- How many bytes of a text are held back. -/
def bufferSize : Nat := 8192

/-- Compose a text. A device that takes no text is noticed if the buffer does not hold it. -/
def spill (d : Disk) (text : String) : Except Fault Unit :=
  match d.check .write with
  | .ok () => .ok ()
  | .error fault => if bufferSize < text.utf8ByteSize then .error fault else .ok ()

/-- Put a text into a file, now that all of it is composed. -/
def flush (d : Disk) (file : Place) (text : String) : Except Fault Disk := do
  d.check .write
  d.check .flush
  return { d with files := d.files.put file (.file text) }

/-- Force a file to the device, if that is asked for. -/
def sync (d : Disk) (forced : Bool) : Except Fault Unit := if forced then d.check .sync else .ok ()

/-- Give a file another name, in place of the file that has it. -/
def rename (d : Disk) (file : Place) (target : Path) : Except Fault Disk := do
  d.check .rename
  let place ← d.files.target target
  match d.files.node? file with
  | none => throw .notFound
  | some node => return { d with files := (d.files.remove file).put place node }

/-- Take a file away. -/
def delete (d : Disk) (file : Path) : Except Fault Disk := do
  d.check .delete
  let place ← d.files.resolve file
  if d.files.isDirectory place then throw .isDirectory
  return { d with files := d.files.remove place }

/-- Take a temporary file away, as far as it is there. -/
def discard (d : Disk) (temporary : Place) : Disk := { d with files := d.files.remove temporary }

/-- Put a text into a temporary file and give that the name of the target. -/
def fill (d : Disk) (temporary : Place) (target : Path) (forced : Bool) (text : String) :
    Except StoreError Disk := do
  (d.spill text).mapError fun fault => .serialization (.unwritten fault)
  let written ← (d.flush temporary text).mapError fun fault => .storeUnavailable (.flush fault)
  (written.sync forced).mapError fun fault => .storeUnavailable (.sync fault)
  (written.rename temporary target).mapError fun fault => .storeUnavailable (.rename fault)

/-- Exchange the text of a file, or make the file; by way of a temporary file in `directory`. -/
def replace (d : Disk) (directory target : Path) (forced : Bool) (text : String) :
    Except StoreError Unit × Disk :=
  match d.createTemporary directory with
  | .error fault => (.error (.storeUnavailable (.createTemporary fault)), d)
  | .ok (temporary, begun) =>
    match begun.fill temporary target forced text with
    -- the file under the temporary name is all that a failure can have left
    | .error e => (.error e, begun.discard temporary)
    | .ok renamed => (.ok (), renamed)

end Disk

end StepLedger

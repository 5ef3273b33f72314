import StepLedger.CommandLine.Session

/-!
# The program

`main` reads the data directory into a `Disk`, carries out what was typed, and writes back the files
that changed. All decisions are made in `CommandLine.run`.
-/

namespace StepLedger.CommandLine

/-- What stands at the end of a path of the machine. A file that is no text holds no snapshot. -/
def readNode (path : Path) : IO (Option Node) := do
  let path := (← IO.currentDir) / path.text
  if ← path.isDir then return some .directory
  if ← path.pathExists then
    return some (.file (← try IO.FS.readFile path catch _ => pure ""))
  return none

/-- The names of what stands in a directory of the machine. -/
def readNames (directory : Path) : IO (List String) := do
  let path := (← IO.currentDir) / directory.text
  if ← path.isDir then return (← path.readDir).toList.map (·.fileName)
  return []

/-- The paths through which a path goes, and the path itself. -/
def stages (path : Path) : List Path :=
  (List.range path.parts.length).map fun n => { path with parts := path.parts.take (n + 1) }

/-- The time of day. -/
def clock : IO Calendar.Instant := do
  let (_, path) ← IO.FS.createTempFile
  let modified := (← path.metadata).modified
  IO.FS.removeFile path
  match Calendar.Instant.ofUnixTime? modified.sec.toNat modified.nsec.toNat with
  | some now => return now
  | none => throw (IO.userError "the clock is out of range")

/-- A directory of the machine with those that lead to it and what stands in it. -/
def readFiles (directory : Path) : IO FileSystem := do
  let inside := (← readNames directory).map fun name => directory.join ⟨false, [name]⟩
  let mut files := FileSystem.empty
  for path in stages directory ++ inside do
    if let some node ← readNode path then
      files := files.put path.place node
  return files

/-- Make the directories that are new on the way to a directory, write the files of that directory
that differ from what they were, and remove those that are gone. A file gets its new text all at
once. -/
def writeFiles (directory : Path) (before after : FileSystem) : IO Unit := do
  let here ← IO.currentDir
  for stage in stages directory do
    if after.isDirectory stage.place && !(← (here / stage.text).isDir) then
      IO.FS.createDir (here / stage.text)
  let root := here / directory.text
  let place := directory.place
  for (name, node) in after.children place do
    if let .file text := node then
      if before.node? (place ++ [name]) ≠ some node then
        let temporary := root / after.freshName
        IO.FS.writeFile temporary text
        IO.FS.rename temporary (root / name)
  for (name, _) in before.children place do
    if (after.node? (place ++ [name])).isNone then IO.FS.removeFile (root / name)

/-- Carry out what was typed on the data directory that it names. -/
def runOnMachine (arguments : List String) : IO Transcript := do
  let now ← clock
  match Arguments.ofList arguments with
  | .error _ => return (run ⟨.empty, now, none⟩ arguments).1
  | .ok a =>
    let directory := Path.ofText a.dataDirectory
    let files ← readFiles directory
    let (transcript, disk) := run ⟨files, now, none⟩ arguments
    writeFiles directory files disk.files
    return transcript

end StepLedger.CommandLine

/-- Carry out what was typed, and print. -/
def main (arguments : List String) : IO UInt32 := do
  let transcript ← StepLedger.CommandLine.runOnMachine arguments
  IO.print transcript.output
  IO.eprint transcript.errors
  return transcript.code

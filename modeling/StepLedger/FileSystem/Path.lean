import StepLedger.Text.Split

/-!
# Paths

A `Path` is a path as it is written: the parts between its slashes, among them the empty ones and the
dots. So it keeps its text (`text_ofText`), and what can be done to it without looking at files is
done to its parts: `join`, `withExtension`, `ancestors`.

A `Place` is where something stands: the names that lead there, without dots. A path leads to
`Path.place` if everything that it goes through is a directory; whether that is so is known to a
file system only.
-/

namespace StepLedger

/-! ## Places -/

/-- The names that lead to a place, `[]` being the working directory. Those of a place that is named
from the root of the machine begin with a slash. -/
abbrev Place := List String

namespace Place

/-- The root of the machine. -/
def root : Place := ["/"]

/-- The directory above; the root is its own. -/
def above (place : Place) : Place := if place = root then root else place.dropLast

end Place

/-! ## Paths -/

/-- A path as it is written. -/
structure Path where
  /-- Whether the path begins with a slash. -/
  absolute : Bool
  /-- What stands between the slashes. -/
  parts : List String
deriving DecidableEq, Repr

namespace Path

/-- The path with a text. -/
def ofText (text : String) : Path :=
  match text.toList with
  | '/' :: text => ⟨true, (Text.split '/' text).map String.ofList⟩
  | text => ⟨false, (Text.split '/' text).map String.ofList⟩

/-- The text of a path. -/
def text (p : Path) : String := (if p.absolute then "/" else "") ++ "/".intercalate p.parts

theorem text_ofText (text : String) : (ofText text).text = text := by
  apply String.toList_injective
  unfold ofText
  split
  · next rest h =>
    simp [Path.text, h, String.toList_intercalate, Function.comp_def, Text.join_split]
  · simp [Path.text, String.toList_intercalate, Function.comp_def, Text.join_split]

/-- Whether a part of a path leads nowhere: a single dot, or nothing between two slashes. -/
def isIdle (part : String) : Bool := part = "" || part = "."

/-- The parts that lead somewhere. Paths that agree in these mean the same. -/
def steps (p : Path) : List String := p.parts.filter fun part => !isIdle part

/-- Parts without the idle ones at the end. -/
def trim (parts : List String) : List String := (parts.reverse.dropWhile isIdle).reverse

/-- Where the first part of a path is looked up. -/
def start (p : Path) : Place := if p.absolute then Place.root else []

/-- Where a part of a path leads from a directory. -/
def enter (place : Place) (part : String) : Place :=
  if isIdle part then place else if part = ".." then place.above else place ++ [part]

/-- Where a path leads if everything that it goes through is a directory. -/
def place (p : Path) : Place := p.parts.foldl enter p.start

/-- A path that begins in a directory, unless it begins at the root anyway. -/
def join (directory p : Path) : Path :=
  if p.absolute then p
  else
    let parts := directory.parts
    ⟨directory.absolute, (if parts.getLast? = some "" then parts.dropLast else parts) ++ p.parts⟩

/-- A path and those to the directories above it, upwards, without the empty path. -/
def ancestors (p : Path) : List Path :=
  let parts := trim p.parts
  let above := (List.range parts.length).reverse.map fun n => ⟨p.absolute, trim (parts.take n)⟩
  (p :: above).filter fun p => p.text ≠ ""

/-! ### Extensions -/

/-- A name before its last dot and after it, unless the dot begins the name. -/
def cutExtension? (name : String) : Option (String × String) :=
  match Text.cut? '.' name.toList.reverse with
  | some (after, before) =>
    if before.isEmpty then none else some (.ofList before.reverse, .ofList after.reverse)
  | none => none

/-- The last name of a path with an extension in place of its own; idle parts after it are dropped.
The way back to the directory above has no name and stays as it is. That also is what a name such as
`..x` becomes when it ends the path: its extension goes first, and nothing is left to extend. -/
def withExtension (p : Path) (extension : String) : Path :=
  let parts := trim p.parts
  let named := fun name => { p with parts := parts.dropLast ++ [name] }
  match parts.getLast? with
  | none => p
  | some name =>
    if name = ".." then p
    else
      match cutExtension? name with
      | none => named (name ++ "." ++ extension)
      | some (stem, _) =>
        if stem = "." ∧ parts = p.parts then named ".." else named (stem ++ "." ++ extension)

end Path

end StepLedger

import StepLedger.Config
import StepLedger.Entries

/-!
# Arguments of the command line

`Arguments.ofList` reads what was typed. Options begin with two hyphens and take the next argument,
or what stands behind an equals sign, as their value; a value of its own may not begin with a
hyphen. Behind a lone `--` every argument is positional. The first positional argument of the
program is the name of a command, which has positional arguments and options of its own.

`Level.scan` goes through the arguments of the program or of a command in order. A value is looked
at when the next argument is taken up, and asking for help or for the version ends the reading there
and then; that decides which of two requests or mistakes counts.
-/

namespace StepLedger.CommandLine

/-- Why there is nothing to carry out. -/
inductive Refusal where
  | help
  | version
  /-- The arguments make no sense. -/
  | usage
deriving DecidableEq, Repr

/-! ## Values -/

/-- What an option or a positional argument may be. -/
inductive Kind where
  | text
  /-- A path, which may not be empty. -/
  | path
  | int64
  | uint32
  | strategy
deriving DecidableEq, Repr

/-- A whole number between two bounds. -/
def intWithin? (lower upper : Int) (text : String) : Option Int :=
  (Decimal.toInt? text.toList).bind fun n => if lower ≤ n ∧ n < upper then some n else none

def toInt64? (text : String) : Option Int64 :=
  (intWithin? (-9223372036854775808) 9223372036854775808 text).map .ofInt

def toUInt32? (text : String) : Option UInt32 :=
  (intWithin? 0 4294967296 text).map fun n => .ofNat n.toNat

/-- Whether a text is a value of a kind. -/
def Kind.accepts : Kind → String → Bool
  | .text, _ => true
  | .path, value => !value.isEmpty
  | .int64, value => (toInt64? value).isSome
  | .uint32, value => (toUInt32? value).isSome
  | .strategy, value => (Sequence.Strategy.ofName value).toOption.isSome

/-! ## Scanning -/

/-- What may stand among the arguments of the program or of a command. -/
structure Level where
  options : List (String × Kind)
  positionals : List Kind
  commands : List String
  /-- Whether the version may be asked for. -/
  hasVersion : Bool
deriving DecidableEq, Repr

/-- A value that has not been looked at yet. -/
inductive Pending where
  | none
  /-- An option with its value, as soon as that is there. -/
  | option (name : String) (value : Option String)
  | positional (value : String)
deriving DecidableEq, Repr

/-- What has been read. -/
structure Scan where
  options : List (String × String)
  positionals : List String
  pending : Pending
  /-- Whether every further argument is positional. -/
  trailing : Bool
deriving DecidableEq, Repr

namespace Level

/-- Nothing read yet. -/
def start : Scan := ⟨[], [], .none, false⟩

/-- Take an option with its value. An option may be given once. -/
def accept (level : Level) (scan : Scan) (name value : String) : Except Refusal Scan :=
  match Entries.find? name level.options, Entries.find? name scan.options with
  | some kind, none =>
    if kind.accepts value then
      .ok { scan with options := scan.options ++ [(name, value)], pending := .none }
    else .error .usage
  | _, _ => .error .usage

/-- Look at the value that is pending. -/
def settle (level : Level) (scan : Scan) : Except Refusal Scan :=
  match scan.pending with
  | .none => .ok scan
  | .option _ none => .error .usage
  | .option name (some value) => level.accept scan name value
  | .positional value =>
    match level.positionals[scan.positionals.length]? with
    | some kind =>
      if kind.accepts value then
        .ok { scan with positionals := scan.positionals ++ [value], pending := .none }
      else .error .usage
    | none => .error .usage

/-- Take a positional argument. -/
def positional (level : Level) (scan : Scan) (value : String) : Except Refusal Scan := do
  let scan ← level.settle scan
  if scan.positionals.length < level.positionals.length then
    return { scan with pending := .positional value }
  else throw .usage

/-- Take what stands behind two hyphens. -/
def long (level : Level) (scan : Scan) (text : List Char) : Except Refusal Scan :=
  let (name, attached) := match Text.cut? '=' text with
    | some (name, value) => (String.ofList name, some (String.ofList value))
    | none => (String.ofList text, none)
  if (Entries.find? name level.options).isSome then do
    let scan ← level.settle scan
    match attached with
    | some value => level.accept scan name value
    | none => return { scan with pending := .option name none }
  else if attached.isSome then .error .usage
  else if name = "help" then level.settle scan >>= fun _ => .error .help
  else if name = "version" ∧ level.hasVersion then level.settle scan >>= fun _ => .error .version
  else .error .usage

/-- Take a letter behind one hyphen. -/
def short (level : Level) (scan : Scan) (letter : Char) : Except Refusal Scan :=
  if letter = 'h' then level.settle scan >>= fun _ => .error .help
  else if letter = 'V' ∧ level.hasVersion then level.settle scan >>= fun _ => .error .version
  else .error .usage

/-- Whether a command may stand here: not where an option still needs its value. -/
def commandMayFollow (scan : Scan) : Bool :=
  !scan.trailing &&
    match scan.pending with
    | .option _ none => false
    | _ => true

/-- Take one argument that is no command. -/
def step (level : Level) (scan : Scan) (argument : String) : Except Refusal Scan :=
  if scan.trailing then level.positional scan argument
  else
    match argument.toList with
    | ['-', '-'] => .ok { scan with trailing := true }
    | '-' :: '-' :: text => level.long scan text
    | '-' :: letter :: _ => level.short scan letter
    | _ =>
      match scan.pending with
      | .option name none => .ok { scan with pending := .option name (some argument) }
      | _ => level.positional scan argument

/-- Go through arguments up to a command. What is read is given together with the command and the
arguments behind it. -/
def scan (level : Level) (scanned : Scan) :
    List String → Except Refusal (Scan × Option (String × List String))
  | [] => .ok (scanned, none)
  | argument :: arguments =>
    if commandMayFollow scanned && level.commands.contains argument then
      .ok (scanned, some (argument, arguments))
    else do
      level.scan (← level.step scanned argument) arguments

/-- Go through all the arguments of a command. -/
def scanAll (level : Level) (arguments : List String) : Except Refusal Scan := do
  let (scanned, _) ← level.scan start arguments
  let scanned ← level.settle scanned
  if scanned.positionals.length = level.positionals.length then return scanned else throw .usage

end Level

namespace Scan

/-- The value of an option as it was typed. -/
def option? (scan : Scan) (name : String) : Option String := Entries.find? name scan.options

/-- A value of an option that need not be given. -/
def optionOr {α : Type} (scan : Scan) (name : String) (decode : String → Option α) (otherwise : α) :
    Except Refusal α :=
  match scan.option? name with
  | none => .ok otherwise
  | some text => (decode text).elim (.error .usage) .ok

/-- A value of an option that has to be given. -/
def option {α : Type} (scan : Scan) (name : String) (decode : String → Option α) :
    Except Refusal α :=
  ((scan.option? name).bind decode).elim (.error .usage) .ok

/-- A positional argument. -/
def positional {α : Type} (scan : Scan) (index : Nat) (decode : String → Option α) :
    Except Refusal α :=
  (scan.positionals[index]?.bind decode).elim (.error .usage) .ok

end Scan

/-! ## Commands -/

/-- What the program can be told to do. -/
inductive Command where
  /-- Create the counter of a sequence unless it is there. -/
  | seed (name : String) (initial : Int64) (note : Option String)
  /-- Allocate values from a sequence. -/
  | next (name : String) (count : UInt32)
  /-- List the steps of a run of a job. -/
  | list (job jobInstance : Int64)
  /-- Print one step. -/
  | print (job step jobInstance : Int64)
deriving DecidableEq, Repr

/-- What was typed. -/
structure Arguments where
  dataDirectory : String
  sequenceCollection : String
  strategy : Sequence.Strategy
  command : Command
deriving DecidableEq, Repr

namespace Command

/-- The names of the commands. -/
def names : List String := ["seed", "next", "list", "show"]

/-- What may stand among the arguments of a command. -/
def level : String → Level
  | "seed" => ⟨[("initial", .int64), ("note", .text)], [.text], [], false⟩
  | "next" => ⟨[("count", .uint32)], [.text], [], false⟩
  | "list" => ⟨[("instance", .int64)], [.int64], [], false⟩
  | "show" => ⟨[("instance", .int64)], [.int64, .int64], [], false⟩
  | _ => ⟨[], [], [], false⟩

/-- The command of a name and its arguments. -/
def ofList (name : String) (arguments : List String) : Except Refusal Command := do
  let scan ← (level name).scanAll arguments
  match name with
  | "seed" =>
    return .seed (← scan.positional 0 some) (← scan.optionOr "initial" toInt64? 0)
      (scan.option? "note")
  | "next" => return .next (← scan.positional 0 some) (← scan.optionOr "count" toUInt32? 1)
  | "list" => return .list (← scan.positional 0 toInt64?) (← scan.option "instance" toInt64?)
  | "show" =>
    return .print (← scan.positional 0 toInt64?) (← scan.positional 1 toInt64?)
      (← scan.option "instance" toInt64?)
  | _ => throw .usage

/-- What the command for help answers: the help for one command, unless it does not exist. -/
def help (arguments : List String) : Refusal :=
  match arguments with
  | [] => .help
  | [name] => if name = "help" ∨ names.contains name then .help else .usage
  | _ => .usage

end Command

namespace Arguments

/-- The directory in which the program works unless another is named. -/
def defaultDirectory : String := "./batchstore-data"

/-- What may stand among the arguments of the program. -/
def level : Level where
  options := [("data-dir", .path), ("sequence-collection", .text), ("strategy", .strategy)]
  positionals := []
  commands := "help" :: Command.names
  hasVersion := true

/-- Read the arguments of the program. -/
def ofList (arguments : List String) : Except Refusal Arguments := do
  let (scan, rest) ← level.scan Level.start arguments
  match rest with
  | none => throw .usage
  | some ("help", arguments) => throw (Command.help arguments)
  | some (name, arguments) =>
    let command ← Command.ofList name arguments
    let scan ← level.settle scan
    return {
      dataDirectory := ← scan.optionOr "data-dir" some defaultDirectory
      sequenceCollection :=
        ← scan.optionOr "sequence-collection" some Config.defaultSequenceCollection
      strategy := ← scan.optionOr "strategy" (fun name => (Sequence.Strategy.ofName name).toOption)
        .atomicIncrement
      command }

end Arguments

end StepLedger.CommandLine

import StepLedger.Json.Decode

/-!
# Status of an execution

A `BatchStatus` is a stage in the life of a step; it is stored by name. An `ExitStatus` is the code
with which a step ended and a free text.
-/

namespace StepLedger

/-- Stages in the life of a step or job execution. -/
inductive BatchStatus where
  | completed
  | starting
  | started
  | stopping
  | stopped
  | failed
  | abandoned
  | unknown
deriving DecidableEq, Repr

namespace BatchStatus

/-- Every status. -/
def all : List BatchStatus :=
  [.completed, .starting, .started, .stopping, .stopped, .failed, .abandoned, .unknown]

/-- The name under which a status is stored. -/
def name : BatchStatus → String
  | .completed => "COMPLETED"
  | .starting => "STARTING"
  | .started => "STARTED"
  | .stopping => "STOPPING"
  | .stopped => "STOPPED"
  | .failed => "FAILED"
  | .abandoned => "ABANDONED"
  | .unknown => "UNKNOWN"

/-- Whether the execution is under way. -/
def isRunning : BatchStatus → Bool
  | .starting | .started | .stopping => true
  | _ => false

/-- The status of a name. -/
def ofName? (name : String) : Option BatchStatus := all.find? (·.name = name)

/-- The status of a name given by a caller. -/
def ofName (name : String) : Except StoreError BatchStatus :=
  match ofName? name with
  | some status => .ok status
  | none => .error (.invalidArgument (.statusName name))

/-- The status of a stored name. -/
def decodeName (name : String) : Except DecodeError BatchStatus :=
  match ofName? name with
  | some status => .ok status
  | none => .error (.unknownVariant name (all.map BatchStatus.name))

/-- Decode a status: its name, or an object whose only field has that name and the value `null`. -/
def decode (value : Json.Value) : Except DecodeError BatchStatus :=
  match value with
  | .string name => decodeName name
  | .object [(name, content)] => do
    let status ← decodeName name
    if content.isNull then return status else throw (content.mismatch "unit")
  | .object _ => .error (.invalidValue value.describe "map with a single key")
  | value => .error (value.mismatch "string or map")

end BatchStatus

/-- The code with which a step ended, and a description. -/
structure ExitStatus where
  code : String
  description : String
deriving DecidableEq, Repr

namespace ExitStatus

def unknown : ExitStatus := ⟨"UNKNOWN", ""⟩

def executing : ExitStatus := ⟨"EXECUTING", ""⟩

def completed : ExitStatus := ⟨"COMPLETED", ""⟩

def noop : ExitStatus := ⟨"NOOP", ""⟩

def failed : ExitStatus := ⟨"FAILED", ""⟩

def stopped : ExitStatus := ⟨"STOPPED", ""⟩

/-- The exit status of a step that has not ended. -/
def default : ExitStatus := executing

/-- The same code with another description. -/
def withDescription (status : ExitStatus) (description : String) : ExitStatus :=
  { status with description }

/-- Decode an exit status: an object with both fields, or an array of both texts. In an object the
fields that are there are looked at before one is missed. -/
def decode (value : Json.Value) : Except DecodeError ExitStatus :=
  match value with
  | .object fields => do
    let code ← Json.Value.field? fields "exit_code" Json.Value.toText
    let description ← Json.Value.field? fields "exit_description" Json.Value.toText
    return {
      code := ← DecodeError.require "exit_code" code
      description := ← DecodeError.require "exit_description" description }
  | .array items =>
    match items with
    | [] => .error (.invalidLength 0 whole)
    | code :: items => do
      let code ← code.toText
      match items with
      | [] => throw (.invalidLength 1 whole)
      | description :: more =>
        let description ← description.toText
        if more.isEmpty then return ⟨code, description⟩
        else throw (.invalidLength (more.length + 2) "fewer elements in array")
  | value => .error (value.mismatch "struct ExitStatus")
where
  /-- What an array has to be. -/
  whole : String := "struct ExitStatus with 2 elements"

end ExitStatus

end StepLedger

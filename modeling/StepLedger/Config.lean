import StepLedger.Sequence.Strategy
import StepLedger.Text.Blank

/-!
# Configuration

A `Config` names what a repository is made of. `Config.toUrl` writes its database, strategy and data
directory as a URL and `Config.ofUrl` reads one; the other settings have no place in a URL.
-/

namespace StepLedger

/-- What a repository is made of. -/
structure Config where
  database : String
  /-- The collection of the step executions. -/
  stepCollection : String
  /-- The collection of the counters. -/
  sequenceCollection : String
  /-- The sequence of the ids of step executions. -/
  stepSequence : String
  /-- How many characters of an exit description are stored. -/
  descriptionCap : Nat
  strategy : Sequence.Strategy
  /-- Where snapshots are kept; without it everything is in memory. -/
  dataDirectory : Option String
deriving DecidableEq, Repr

namespace Config

/-- The usual collection of step executions. -/
def defaultStepCollection : String := "BATCH_STEP_EXECUTION"

/-- The usual collection of counters. -/
def defaultSequenceCollection : String := "BATCH_SEQUENCES"

/-- The usual sequence of the ids of step executions. -/
def defaultStepSequence : String := "STEP_EXECUTION_SEQ"

/-- The usual length of exit descriptions. -/
def defaultDescriptionCap : Nat := 2500

/-- The usual settings for a database, in memory. -/
def ofDatabase (database : String) : Config where
  database
  stepCollection := defaultStepCollection
  sequenceCollection := defaultSequenceCollection
  stepSequence := defaultStepSequence
  descriptionCap := defaultDescriptionCap
  strategy := .atomicIncrement
  dataDirectory := none

/-- The usual settings. -/
def default : Config := ofDatabase "batch"

/-! ## Validation -/

/-- Refuse a name that has nothing but white space. -/
def checkName (setting name : String) : Except ConfigError Unit :=
  if Text.allBlank name then .error (.empty setting) else .ok ()

/-- Whether a repository can be made of this. -/
def validate (c : Config) : Except ConfigError Unit := do
  if c.database.isEmpty then throw .noDatabase
  checkName "step_execution_collection" c.stepCollection
  checkName "sequence_collection" c.sequenceCollection
  checkName "step_execution_sequence" c.stepSequence
  if c.stepCollection = c.sequenceCollection then throw .sameCollections
  if c.descriptionCap = 0 then throw .noDescription

/-! ## URLs -/

/-- What a text holds after a beginning; none if it begins otherwise. -/
def after? : List Char → List Char → Option (List Char)
  | [], text => some text
  | _ :: _, [] => none
  | c :: beginning, d :: text => if c = d then after? beginning text else none

/-- Change the setting that one parameter of a URL names. -/
def setParameter (c : Config) (pair : List Char) : Except ConfigError Config :=
  match Text.cut? '=' pair with
  | some (name, value) =>
    if name = "path".toList ∧ value ≠ [] then
      .ok { c with dataDirectory := some (String.ofList value) }
    else if name = "strategy".toList then do
      return { c with strategy := ← Sequence.Strategy.ofName (String.ofList value) }
    else .error (.parameter (String.ofList pair))
  | none => .error (.parameter (String.ofList pair))

/-- The configuration of a URL: a database and, behind a question mark, parameters with ampersands
between them, of which the later ones count. -/
def ofUrl (url : String) : Except ConfigError Config :=
  match after? urlScheme.toList url.toList with
  | none => .error .scheme
  | some text =>
    let (database, parameters) := match Text.cut? '?' text with
      | some (database, query) => (database, Text.split '&' query)
      | none => (text, [])
    if database.isEmpty ∨ database.contains '/' then .error .databaseName
    else parameters.foldlM setParameter (ofDatabase (String.ofList database))

/-- The URL of a configuration. -/
def toUrl (c : Config) : String :=
  let path := match c.dataDirectory with
    | some directory => "&path=" ++ directory
    | none => ""
  urlScheme ++ c.database ++ "?strategy=" ++ c.strategy.name ++ path

end Config

end StepLedger

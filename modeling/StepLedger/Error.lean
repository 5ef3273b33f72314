import StepLedger.Calendar.Reader
import StepLedger.FileSystem

/-!
# Errors

`StoreError` is what a request of a store or an operation of the repository fails with. The causes
are data (`ConfigError`, `ArgumentError`, `DecodeError`, `Absence`, `Outage`); the wording of each
stands in its `message`.
-/

namespace StepLedger

/-- What is wrong with a configuration or its URL. -/
inductive ConfigError where
  | scheme
  | databaseName
  | parameter (pair : String)
  | strategy (name : String)
  | noDatabase
  | empty (setting : String)
  | sameCollections
  | noDescription
deriving DecidableEq, Repr

/-- How the URL of a repository begins. -/
def urlScheme : String := "batchstore://"

def ConfigError.message : ConfigError → String
  | .scheme => "URL must start with '" ++ urlScheme ++ "'"
  | .databaseName => "Invalid database name"
  | .parameter pair => "Invalid URL parameter '" ++ pair ++ "'"
  | .strategy name => "Unknown sequence strategy '" ++ name ++ "'"
  | .noDatabase => "Database name cannot be empty"
  | .empty setting => setting ++ " cannot be empty"
  | .sameCollections => "Step executions and sequences must use different collections"
  | .noDescription => "max_exit_description_length must be > 0"

/-- Why an argument is refused. -/
inductive ArgumentError where
  /-- A document without primary key was to be inserted. -/
  | noKey (collection : String)
  | keyUpdate
  | emptyUpdate
  | notInteger (field shown : String)
  | overflow (field : String)
  | collectionName (name : String)
  | emptySequenceName
  | exhausted (sequence : String)
  | tooWide (sequence : String) (value : Int)
  | noStepName
  | noStartTime
  | noStatus
  | counter (name : String) (value limit : Nat)
  | unidentified
  | hasId
  | hasVersion
  | noBatch
  | noId
  | noVersion
  | lastVersion (id version : Int)
  | statusName (name : String)
  | config (error : ConfigError)
  | other (text : String)
deriving DecidableEq, Repr

def ArgumentError.message : ArgumentError → String
  | .noKey collection => "Document inserted into '" ++ collection ++ "' has no 'id' field"
  | .keyUpdate => "Update may not modify the primary key field 'id'"
  | .emptyUpdate => "Update must contain at least one operator"
  | .notInteger field shown =>
    "Cannot apply $inc to non-integer field '" ++ field ++ "' (" ++ shown ++ ")"
  | .overflow field => "$inc on field '" ++ field ++ "' overflows"
  | .collectionName name => "Invalid collection name '" ++ name ++ "'"
  | .emptySequenceName => "Sequence name cannot be empty."
  | .exhausted sequence => "Sequence '" ++ sequence ++ "' is exhausted"
  | .tooWide sequence value =>
    "Sequence '" ++ sequence ++ "' value " ++ toString value ++ " does not fit in 32 bits"
  | .noStepName => "StepExecution step name cannot be null."
  | .noStartTime => "StepExecution start time cannot be null."
  | .noStatus => "StepExecution status cannot be null."
  | .counter name value limit =>
    "StepExecution " ++ name ++ " " ++ toString value ++ " exceeds the maximum of " ++
      toString limit ++ "."
  | .unidentified => "StepExecution must have an id and a version before it can be persisted"
  | .hasId => "to-be-saved (not updated) StepExecution can't already have an id assigned"
  | .hasVersion => "to-be-saved (not updated) StepExecution can't already have a version assigned"
  | .noBatch => "Attempt to save a null collection of step executions"
  | .noId =>
    "StepExecution Id cannot be null. StepExecution must saved before it can be updated."
  | .noVersion =>
    "StepExecution version cannot be null. StepExecution must saved before it can be updated."
  | .lastVersion id version =>
    "StepExecution id=" ++ toString id ++ " cannot advance past version " ++ toString version
  | .statusName name => "Unknown batch status '" ++ name ++ "'"
  | .config error => error.message
  | .other text => text

/-- Why a document or a snapshot does not decode or is not put into text, or a value is no document. -/
inductive DecodeError where
  | missingField (name : String)
  /-- A value of another type, with descriptions of what was found and what was expected. -/
  | invalidType (found expected : String)
  /-- A value of the right type that is out of range or has the wrong form. -/
  | invalidValue (found expected : String)
  | invalidLength (length : Nat) (expected : String)
  | unknownVariant (name : String) (variants : List String)
  | time (error : Calendar.TimeError)
  | notDocument (shown : String)
  | unsupportedVersion (version : Nat) (path : String)
  /-- A file that cannot be read. -/
  | unreadable (fault : Fault)
  /-- A text that is not JSON, or JSON that is not a snapshot. -/
  | notSnapshot
  /-- A snapshot of which the file could not take all while it was put into text. -/
  | unwritten (fault : Fault)
  | other (text : String)
deriving DecidableEq, Repr

/-- A name between backticks. -/
def backticked (name : String) : String := "`" ++ name ++ "`"

def DecodeError.message : DecodeError → String
  | .missingField name => "missing field " ++ backticked name
  | .invalidType found expected => "invalid type: " ++ found ++ ", expected " ++ expected
  | .invalidValue found expected => "invalid value: " ++ found ++ ", expected " ++ expected
  | .invalidLength length expected =>
    "invalid length " ++ toString length ++ ", expected " ++ expected
  | .unknownVariant name variants =>
    "unknown variant " ++ backticked name ++ ", expected one of " ++
      ", ".intercalate (variants.map backticked)
  | .time error => error.message
  | .notDocument shown => "expected a document, got " ++ shown
  | .unsupportedVersion version path =>
    "Unsupported snapshot version " ++ toString version ++ " in " ++ path
  | .unreadable fault => fault.message
  | .notSnapshot => "text is not a collection snapshot"
  | .unwritten fault => fault.message
  | .other text => text

/-- The value of a field that has to be there. -/
def DecodeError.require {α : Type} (name : String) : Option α → Except DecodeError α
  | some a => .ok a
  | none => .error (.missingField name)

/-- What is not there. -/
inductive Absence where
  | counter (sequence collection : String)
  | step (id : Int)
  | stepOfJob (id job : Int)
  | other (text : String)
deriving DecidableEq, Repr

def Absence.message : Absence → String
  | .counter sequence collection =>
    "No counter defined for sequence '" ++ sequence ++ "' in collection '" ++ collection ++ "'"
  | .step id => "StepExecution with id=" ++ toString id ++ " not found"
  | .stepOfJob id job =>
    "StepExecution with id=" ++ toString id ++ " not found for job execution " ++ toString job
  | .other text => text

/-- Why a store cannot answer. -/
inductive Outage where
  | closed
  | createDirectory (directory : String) (fault : Fault)
  | createTemporary (fault : Fault)
  | flush (fault : Fault)
  | sync (fault : Fault)
  | rename (fault : Fault)
  | delete (fault : Fault)
  | list (fault : Fault)
  | other (text : String)
deriving DecidableEq, Repr

def Outage.message : Outage → String
  | .closed => "document store is closed"
  | .createDirectory directory fault =>
    "Failed to create data directory " ++ directory ++ ": " ++ fault.message
  | .createTemporary fault => "Failed to create temp file: " ++ fault.message
  | .flush fault => "Failed to flush snapshot: " ++ fault.message
  | .sync fault => "Failed to sync snapshot: " ++ fault.message
  | .rename fault => "Failed to rename snapshot: " ++ fault.message
  | .delete fault => "Failed to delete snapshot: " ++ fault.message
  | .list fault => fault.message
  | .other text => text

/-- Why a request or an operation fails. -/
inductive StoreError where
  | invalidArgument (cause : ArgumentError)
  | optimisticLockConflict (id expected actual : Int)
  | notFound (what : Absence)
  | multipleRecordsFound (key : String) (found : Nat)
  | storeUnavailable (cause : Outage)
  | duplicateKey (collection key : String)
  /-- A bulk insert stopped at a document, after some were stored. -/
  | bulkWrite (inserted : Nat) (source : StoreError)
  | serialization (cause : DecodeError)
deriving DecidableEq, Repr

/-- The kinds of errors. -/
inductive ErrorKind where
  | invalidArgument
  | optimisticLockConflict
  | notFound
  | multipleRecordsFound
  | storeUnavailable
  | duplicateKey
  | bulkWrite
  | serialization
deriving DecidableEq, Repr

namespace StoreError

/-- The kind of an error, whatever its cause. -/
def kind : StoreError → ErrorKind
  | .invalidArgument _ => .invalidArgument
  | .optimisticLockConflict .. => .optimisticLockConflict
  | .notFound _ => .notFound
  | .multipleRecordsFound .. => .multipleRecordsFound
  | .storeUnavailable _ => .storeUnavailable
  | .duplicateKey .. => .duplicateKey
  | .bulkWrite .. => .bulkWrite
  | .serialization _ => .serialization

/-- The text of an error. -/
def message : StoreError → String
  | .invalidArgument cause => "Invalid argument: " ++ cause.message
  | .optimisticLockConflict id expected actual =>
    "Attempt to update step execution id=" ++ toString id ++ " with wrong version (" ++
      toString expected ++ "), where current version is " ++ toString actual
  | .notFound what => "Not found: " ++ what.message
  | .multipleRecordsFound key found =>
    "Expected at most one record for " ++ key ++ ", found " ++ toString found
  | .storeUnavailable cause => "Store unavailable: " ++ cause.message
  | .duplicateKey collection key =>
    "Duplicate key '" ++ key ++ "' in collection '" ++ collection ++ "'"
  | .bulkWrite inserted source =>
    "Bulk write failed after " ++ toString inserted ++ " documents: " ++ source.message
  | .serialization cause => "Serialization error: " ++ cause.message

/-- Whether the same request may succeed later: after a conflict once the record has been read
again, after an outage once the store is back. -/
def isRetryable (error : StoreError) : Bool :=
  error.kind = .optimisticLockConflict || error.kind = .storeUnavailable

end StoreError

end StepLedger

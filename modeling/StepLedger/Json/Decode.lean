import StepLedger.Error
import StepLedger.Json.Printer
import StepLedger.Text.Quoted

/-!
# Decoding JSON values

`Value.toInt64`, `Value.toText` and so on read a value as a machine word, a text, a time. A value of
another type is reported with a description of it (`Value.describe`), a number out of range with the
number.
-/

namespace StepLedger.Json.Value

/-- What a value is, in the words of a message. -/
def describe : Value → String
  | .null => "null"
  | .bool true => "boolean " ++ backticked "true"
  | .bool false => "boolean " ++ backticked "false"
  | .number (.int n _ _) => "integer " ++ backticked (toString n)
  | .number (.float x) => "floating point " ++ backticked (String.ofList (Number.renderFloat x))
  | .string s => "string " ++ Text.quoted s
  | .array _ => "sequence"
  | .object _ => "map"

/-- The error of a value that is not of the type expected. -/
def mismatch (value : Value) (expected : String) : DecodeError :=
  .invalidType value.describe expected

/-- A whole number between two bounds, which are those of the type named. -/
def toIntWithin (lower upper : Int) (type : String) (value : Value) : Except DecodeError Int :=
  match value with
  | .number (.int n _ _) =>
    if lower ≤ n ∧ n < upper then .ok n else .error (.invalidValue value.describe type)
  | value => .error (value.mismatch type)

def toInt64 (value : Value) : Except DecodeError Int64 :=
  (toIntWithin (-9223372036854775808) 9223372036854775808 "i64" value).map .ofInt

def toInt32 (value : Value) : Except DecodeError Int32 :=
  (toIntWithin (-2147483648) 2147483648 "i32" value).map .ofInt

def toUInt32 (value : Value) : Except DecodeError UInt32 :=
  (toIntWithin 0 4294967296 "u32" value).map fun n => .ofNat n.toNat

def toText (value : Value) : Except DecodeError String :=
  match value with
  | .string s => .ok s
  | value => .error (value.mismatch "a string")

def toInstant (value : Value) : Except DecodeError Calendar.Instant :=
  match value with
  | .string s => (Calendar.Instant.ofText s).mapError .time
  | value => .error (value.mismatch "an RFC 3339 formatted date and time string")

/-- A value that may be `null`. -/
def toOption {α : Type} (decode : Value → Except DecodeError α) (value : Value) :
    Except DecodeError (Option α) :=
  if value.isNull then .ok none else (decode value).map some

/-- Decode the field of an object, if it is there. -/
def field? {α : Type} (fields : List (String × Value)) (name : String)
    (decode : Value → Except DecodeError α) : Except DecodeError (Option α) :=
  match Entries.find? name fields with
  | some value => (decode value).map some
  | none => .ok none

end StepLedger.Json.Value

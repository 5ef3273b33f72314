import StepLedger.Json.Value

/-!
# JSON text

`Value.render` writes a value without any white space, `Value.renderIndented` over several lines.
In a string only the quote, the backslash and the control characters below the space are escaped.
-/

namespace StepLedger.Json

/-- One character inside a JSON string. -/
def renderChar (c : Char) : List Char :=
  match c with
  | '"' => ['\\', '"']
  | '\\' => ['\\', '\\']
  | '\x08' => ['\\', 'b']
  | '\x0c' => ['\\', 'f']
  | '\n' => ['\\', 'n']
  | '\r' => ['\\', 'r']
  | '\t' => ['\\', 't']
  | c =>
    if c.toNat < 0x20 then
      ['\\', 'u', '0', '0', Nat.digitChar (c.toNat / 16), Nat.digitChar (c.toNat % 16)]
    else [c]

/-- A JSON string. -/
def renderString (text : String) : List Char :=
  '"' :: text.toList.flatMap renderChar ++ ['"']

namespace Value

mutual

/-- The text of a value, without white space. -/
def render : Value → List Char
  | .null => ['n', 'u', 'l', 'l']
  | .bool true => ['t', 'r', 'u', 'e']
  | .bool false => ['f', 'a', 'l', 's', 'e']
  | .number n => n.render
  | .string s => renderString s
  | .array [] => ['[', ']']
  | .array (item :: items) => '[' :: render item ++ renderItems items
  | .object [] => ['\x7b', '\x7d']
  | .object ((name, value) :: fields) =>
    '\x7b' :: renderString name ++ ':' :: render value ++ renderFields fields

/-- An array after its first item. -/
def renderItems : List Value → List Char
  | [] => [']']
  | item :: items => ',' :: render item ++ renderItems items

/-- An object after its first field. -/
def renderFields : List (String × Value) → List Char
  | [] => ['\x7d']
  | (name, value) :: fields =>
    ',' :: renderString name ++ ':' :: render value ++ renderFields fields

end

/-- The text of a value as a string. -/
def text (v : Value) : String := String.ofList v.render

/-! ## Several lines -/

/-- A new line with two spaces for each level of nesting. -/
def newLine (level : Nat) : List Char := '\n' :: List.replicate (2 * level) ' '

mutual

/-- The text of a value with each item and each field on a line of its own. -/
def renderIndented (level : Nat) : Value → List Char
  | .array (item :: items) =>
    '[' :: newLine (level + 1) ++ renderIndented (level + 1) item ++ indentItems level items
  | .object ((name, value) :: fields) =>
    '\x7b' :: newLine (level + 1) ++ renderString name ++ ':' :: ' ' ::
      renderIndented (level + 1) value ++ indentFields level fields
  | value => value.render

/-- An array over several lines after its first item. -/
def indentItems (level : Nat) : List Value → List Char
  | [] => newLine level ++ [']']
  | item :: items =>
    ',' :: newLine (level + 1) ++ renderIndented (level + 1) item ++ indentItems level items

/-- An object over several lines after its first field. -/
def indentFields (level : Nat) : List (String × Value) → List Char
  | [] => newLine level ++ ['\x7d']
  | (name, value) :: fields =>
    ',' :: newLine (level + 1) ++ renderString name ++ ':' :: ' ' ::
      renderIndented (level + 1) value ++ indentFields level fields

end

end Value

end StepLedger.Json

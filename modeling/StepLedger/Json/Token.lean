import StepLedger.Json.Number

/-!
# JSON tokens

`Token.ofText?` splits a text into the tokens of JSON, one character after the other: `Mode` is what
the characters so far have begun, and `Mode.step` takes one more. Reading is lenient in two ways,
because a reader that skips a value does not look into it: a number too large for binary64 and a
string with half of a surrogate pair are tokens whose content is missing.
-/

namespace StepLedger.Json

/-- A token of JSON. The content of a number or a string is missing if it denotes nothing. -/
inductive Token where
  | openArray
  | closeArray
  | openObject
  | closeObject
  | comma
  | colon
  | null
  | bool (value : Bool)
  | number (value : Option Number)
  | string (text : Option String)
deriving DecidableEq, Repr

namespace Token

/-! ## Strings -/

/-- A piece of a string: a character, or a UTF-16 unit written as an escape. -/
inductive Piece where
  | char (c : Char)
  | unit (n : Nat)
deriving DecidableEq, Repr

/-- The first unit of a surrogate pair. -/
def isHighSurrogate (n : Nat) : Bool := 0xD800 ≤ n && n < 0xDC00

/-- The second unit of a surrogate pair. -/
def isLowSurrogate (n : Nat) : Bool := 0xDC00 ≤ n && n < 0xE000

/-- The characters that pieces stand for; none if a surrogate stands alone. -/
def chars? : List Piece → Option (List Char)
  | [] => some []
  | .char c :: pieces => (chars? pieces).map (c :: ·)
  | .unit high :: .unit low :: pieces =>
    if isHighSurrogate high then
      if isLowSurrogate low then
        let code := 0x10000 + (high - 0xD800) * 0x400 + (low - 0xDC00)
        (chars? pieces).map (.ofNat code :: ·)
      else none
    else if isLowSurrogate high then none
    else (chars? (.unit low :: pieces)).map (.ofNat high :: ·)
  | .unit n :: pieces =>
    if isHighSurrogate n || isLowSurrogate n then none
    else (chars? pieces).map (.ofNat n :: ·)

/-- The token of a string. -/
def ofPieces (pieces : List Piece) : Token := .string ((chars? pieces).map String.ofList)

/-- The character that a one-letter escape stands for. -/
def escape? : Char → Option Char
  | '"' => some '"'
  | '\\' => some '\\'
  | '/' => some '/'
  | 'b' => some '\x08'
  | 'f' => some '\x0c'
  | 'n' => some '\n'
  | 'r' => some '\r'
  | 't' => some '\t'
  | _ => none

/-- The value of a hexadecimal digit. -/
def hexDigit? (c : Char) : Option Nat :=
  if c.isDigit then some (c.toNat - '0'.toNat)
  else if 'a' ≤ c ∧ c ≤ 'f' then some (c.toNat - 'a'.toNat + 10)
  else if 'A' ≤ c ∧ c ≤ 'F' then some (c.toNat - 'A'.toNat + 10)
  else none

/-! ## One character after the other -/

/-- What has been begun: nothing, a word with letters still to come, the characters of a number, or
the pieces of a string, an escape or the digits of a unit within it. Characters, pieces and digits
are kept last one first. -/
inductive Mode where
  | between
  | word (missing : List Char) (token : Token)
  | number (chars : List Char)
  | string (pieces : List Piece)
  | escape (pieces : List Piece)
  | unit (pieces : List Piece) (digits : List Nat)
deriving Repr

/-- Characters that may stand in a number. -/
def isNumberChar (c : Char) : Bool :=
  c.isDigit || c = '-' || c = '+' || c = '.' || c = 'e' || c = 'E'

/-- The token of a number. -/
def ofNumber? (chars : List Char) : Option Token :=
  (Numeral.ofText? chars).map fun numeral => .number numeral.number?

/-- Take one character between two tokens. -/
def Mode.start (c : Char) : Option (Mode × List Token) :=
  match c with
  | ' ' | '\n' | '\t' | '\r' => some (.between, [])
  | '[' => some (.between, [.openArray])
  | ']' => some (.between, [.closeArray])
  | '\x7b' => some (.between, [.openObject])
  | '\x7d' => some (.between, [.closeObject])
  | ',' => some (.between, [.comma])
  | ':' => some (.between, [.colon])
  | 'n' => some (.word ['u', 'l', 'l'] .null, [])
  | 't' => some (.word ['r', 'u', 'e'] (.bool true), [])
  | 'f' => some (.word ['a', 'l', 's', 'e'] (.bool false), [])
  | '"' => some (.string [], [])
  | c => if c.isDigit ∨ c = '-' then some (.number [c], []) else none

/-- Take one character: what is begun then, and the tokens it completes, last one first. -/
def Mode.step (mode : Mode) (c : Char) : Option (Mode × List Token) :=
  match mode with
  | .between => start c
  | .word [next] token => if c = next then some (.between, [token]) else none
  | .word (next :: missing) token => if c = next then some (.word missing token, []) else none
  | .word [] _ => none
  | .number chars =>
    if isNumberChar c then some (.number (c :: chars), [])
    else
      match ofNumber? chars.reverse, start c with
      | some token, some (mode, tokens) => some (mode, tokens ++ [token])
      | _, _ => none
  | .string pieces =>
    if c = '"' then some (.between, [ofPieces pieces.reverse])
    else if c = '\\' then some (.escape pieces, [])
    else if c.toNat < 0x20 then none
    else some (.string (.char c :: pieces), [])
  | .escape pieces =>
    if c = 'u' then some (.unit pieces [], [])
    else (escape? c).map fun c => (.string (.char c :: pieces), [])
  | .unit pieces digits =>
    (hexDigit? c).map fun digit =>
      match digits with
      | [c, b, a] => (.string (.unit (((a * 16 + b) * 16 + c) * 16 + digit) :: pieces), [])
      | digits => (.unit pieces (digit :: digits), [])

/-- The tokens still due at the end of a text. -/
def Mode.finish : Mode → Option (List Token)
  | .between => some []
  | .number chars => (ofNumber? chars.reverse).map ([·])
  | _ => none

/-- Go on splitting a text; the tokens so far are kept last one first. -/
def splitFrom (mode : Mode) (tokens : List Token) : List Char → Option (List Token)
  | [] => mode.finish.map fun last => (last ++ tokens).reverse
  | c :: text =>
    match mode.step c with
    | some (mode, new) => splitFrom mode (new ++ tokens) text
    | none => none

/-- The tokens of a text; none if it has a character that begins or continues no token. -/
def ofText? (text : List Char) : Option (List Token) := splitFrom .between [] text

end Token

end StepLedger.Json

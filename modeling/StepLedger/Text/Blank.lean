/-!
# White space

The white space of Unicode (property `White_Space`), which is more than core's `Char.isWhitespace`:
a name of nothing but such characters counts as empty, and times may have them between their parts.
-/

namespace StepLedger.Text

/-- Whether a character has the property `White_Space`. -/
def isBlank (c : Char) : Bool :=
  let n := c.toNat
  (0x09 ≤ n && n ≤ 0x0D) || n = 0x20 || n = 0x85 || n = 0xA0 || n = 0x1680 ||
    (0x2000 ≤ n && n ≤ 0x200A) || n = 0x2028 || n = 0x2029 || n = 0x202F || n = 0x205F || n = 0x3000

/-- The text after its leading white space. -/
def trimStart (text : List Char) : List Char := text.dropWhile isBlank

/-- Whether a text holds nothing but white space. -/
def allBlank (text : String) : Bool := text.toList.all isBlank

end StepLedger.Text

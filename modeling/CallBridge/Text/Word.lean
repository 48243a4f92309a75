import CallBridge.Text.WordRanges
import CallBridge.Text.Ranges

/-!
# Word characters and decimal digits

A word character is a letter, a mark, a decimal digit, a connector such as the
underscore, or a join control, of any script.  An identifier character is the
ASCII subset: letters, digits and the underscore.
-/

namespace CallBridge.Text

/-- A letter or digit of ASCII, or the underscore. -/
def isIdentChar (c : Char) : Bool :=
  c.isAlphanum || c == '_'

/-- A word character of any script. -/
def isWordChar (c : Char) : Bool :=
  isIdentChar c || inRanges wordRanges c.toNat

/-- A decimal digit of any script. -/
def isDecimal (c : Char) : Bool :=
  c.isDigit || inRanges decimalRanges c.toNat

/-- A letter of ASCII or the underscore, then identifier characters. -/
def isIdentifier : List Char → Bool
  | [] => false
  | c :: cs => (c.isAlpha || c == '_') && cs.all isIdentChar

theorem isWordChar_of_isIdentChar {c : Char} (h : isIdentChar c = true) : isWordChar c = true := by
  simp [isWordChar, h]

end CallBridge.Text

/-!
# Character classes of marked-up documents

The classes that decide what may stand where in a document: white space, the
characters of names, and the characters that may occur at all.  The revised
version 1.1 of the format admits more control characters than version 1.0, but
most of them only by reference.
-/

namespace CallBridge.Markup

/-- The white space of markup: space, tab and the two line end characters. -/
def isSpace (c : Char) : Bool :=
  c == ' ' || c == '\n' || c == '\t' || c == '\r'

/-- Whether a code point lies between two others, both included. -/
def between (low high : Nat) (c : Char) : Bool :=
  decide (low ≤ c.toNat) && decide (c.toNat ≤ high)

/-- A character that may begin a name. -/
def isNameStart (c : Char) : Bool :=
  c == ':' || c == '_' || c.isAlpha ||
  between 0xc0 0xd6 c || between 0xd8 0xf6 c || between 0xf8 0x2ff c ||
  between 0x370 0x37d c || between 0x37f 0x1fff c || between 0x200c 0x200d c ||
  between 0x2070 0x218f c || between 0x2c00 0x2fef c || between 0x3001 0xd7ff c ||
  between 0xf900 0xfdcf c || between 0xfdf0 0xfffd c || between 0x10000 0xeffff c

/-- A character that may stand in a name. -/
def isNameChar (c : Char) : Bool :=
  isNameStart c || c == '-' || c == '.' || c.isDigit || c == '\xb7' ||
  between 0x300 0x36f c || between 0x203f 0x2040 c

/-- A character that a reference may stand for. -/
def isChar (revised : Bool) (c : Char) : Bool :=
  if revised then c != '\x00' && !between 0xfffe 0xffff c
  else !between 0x0 0x1f c && !between 0xfffe 0xffff c || c == '\t' || c == '\n' || c == '\r'

/-- A control character that version 1.1 admits only by reference. -/
def isRestricted (c : Char) : Bool :=
  between 0x1 0x8 c || between 0xb 0xc c || between 0xe 0x1f c ||
  between 0x7f 0x84 c || between 0x86 0x9f c

/-- A character that may be written as itself. -/
def isLiteral (revised : Bool) (c : Char) : Bool :=
  isChar revised c && !(revised && isRestricted c)

/-- Printable ASCII may be written as itself in both versions. -/
theorem isLiteral_of_printable {c : Char} (revised : Bool) (low : 0x20 ≤ c.toNat)
    (high : c.toNat ≤ 0x7e) : isLiteral revised c = true := by
  have hz : c ≠ '\x00' := by
    rintro rfl
    exact absurd low (by decide)
  have h1 : ¬ c.toNat ≤ 31 := by omega
  have h2 : ¬ 65534 ≤ c.toNat := by omega
  have h3 : ¬ c.toNat ≤ 8 := by omega
  have h4 : ¬ c.toNat ≤ 12 := by omega
  have h5 : ¬ 127 ≤ c.toNat := by omega
  have h6 : ¬ 134 ≤ c.toNat := by omega
  cases revised <;> simp [isLiteral, isChar, isRestricted, between, hz, h1, h2, h3, h4, h5, h6]

end CallBridge.Markup

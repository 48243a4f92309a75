import CallBridge.Text.HiddenRanges
import CallBridge.Text.Ranges

/-!
# Texts in quotes

A message shows a text it complains of between double quotes.  The quote and the
backslash are escaped, the common controls have short forms, and a character
that has no visible form of its own is given by its code point in hexadecimal.
-/

namespace CallBridge.Text

/-- The hexadecimal digits of a number, lower case and without leading zeros. -/
def hexDigits (n : Nat) : List Char :=
  Nat.toDigits 16 n

/-- Whether a character is spelt out by its code point. -/
def isHidden (c : Char) : Bool :=
  decide (c.toNat < 0x20) || c.toNat == 0x7f || inRanges hiddenRanges c.toNat

/-- The written form of one character inside double quotes. -/
def quotedChar (c : Char) : List Char :=
  match c with
  | '\x00' => ['\\', '0']
  | '\t' => ['\\', 't']
  | '\r' => ['\\', 'r']
  | '\n' => ['\\', 'n']
  | '"' => ['\\', '"']
  | '\\' => ['\\', '\\']
  | c =>
    if isHidden c then ['\\', 'u', '\x7b'] ++ hexDigits c.toNat ++ ['\x7d'] else [c]

/-- A text in double quotes. -/
def quoted (s : String) : String :=
  String.ofList ('"' :: s.toList.flatMap quotedChar ++ ['"'])

end CallBridge.Text

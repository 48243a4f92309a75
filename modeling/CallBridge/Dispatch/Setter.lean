import CallBridge.Text.Match
import CallBridge.Text.Word

/-!
# Setter lines

A dispatch header has one setter for each slot of the dispatch table:

    SET_<slot>(...
    #define SET_<slot>(...
    static inline <type> SET_<slot>(...

`setterSlot?` gives the slot of such a line.  A slot is what stands between `SET_`
and the parenthesis; it has no blanks and may be empty.
-/

namespace CallBridge.Dispatch

open Text

/-- What follows `#define` at the front of a line. -/
def afterDefine? (line : List Char) : Option (List Char) := do
  let cs ← after? ['#'] line
  let cs ← after? "define".toList (trimStart cs)
  afterBlanks? cs

/-- What follows `static inline` and a type at the front of a line. -/
def afterInline? (line : List Char) : Option (List Char) := do
  let cs ← after? "static".toList line
  let cs ← afterBlanks? cs
  let cs ← after? "inline".toList cs
  let cs ← afterBlanks? cs
  let (_, cs) ← run? isWordChar cs
  afterBlanks? cs

/-- A line without the words that introduce a definition. -/
def withoutIntroduction (line : List Char) : List Char :=
  ((afterDefine? line).or (afterInline? line)).getD line

/-- A character of a slot name. -/
def isSlotChar (c : Char) : Bool :=
  !isBlank c && c != '('

/-- The slot that a line sets. -/
def setterSlot? (line : List Char) : Option (List Char) := do
  let cs ← after? "SET_".toList (withoutIntroduction line)
  let _ ← after? ['('] (cs.dropWhile isSlotChar)
  some (cs.takeWhile isSlotChar)

end CallBridge.Dispatch

/-!
# Lines

A line ends at a line feed, and a carriage return right before that line feed
belongs to the line end.  A final line needs no line end; a carriage return at
the very end of the text is part of it.
-/

namespace CallBridge.Text

/-- Puts a character before the first line. -/
def consLine (c : Char) : List (List Char) → List (List Char)
  | [] => [[c]]
  | line :: rest => (c :: line) :: rest

/-- The lines of a text, without their line ends. -/
def lines : List Char → List (List Char)
  | [] => []
  | '\n' :: cs => [] :: lines cs
  | '\r' :: '\n' :: cs => [] :: lines cs
  | c :: cs => consLine c (lines cs)

/-- Writes a carriage return before every line feed. -/
def withReturns : List Char → List Char
  | [] => []
  | c :: cs => if c = '\n' then '\r' :: '\n' :: withReturns cs else c :: withReturns cs

end CallBridge.Text

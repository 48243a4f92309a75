/-!
# Words that are being read

The name of an element or an entity arrives one character at a time.  A `Word` keeps
what has arrived, and how many bytes that takes.
-/

namespace CallBridge.Markup

/-- The characters that have been read, the newest first, and their width in bytes. -/
structure Word where
  chars : List Char := []
  width : Nat := 0
  deriving DecidableEq, Repr

namespace Word

/-- One more character. -/
def push (w : Word) (c : Char) : Word :=
  ⟨c :: w.chars, w.width + c.utf8Size⟩

/-- The word of one character. -/
def ofChar (c : Char) : Word :=
  ({} : Word).push c

def isEmpty (w : Word) : Bool :=
  w.chars.isEmpty

/-- The characters in the order in which they stand. -/
def toList (w : Word) : List Char :=
  w.chars.reverse

@[simp] theorem toList_push (w : Word) (c : Char) : (w.push c).toList = w.toList ++ [c] := by
  simp [toList, push]

end Word

end CallBridge.Markup

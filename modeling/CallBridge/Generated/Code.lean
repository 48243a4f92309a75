/-!
# Text of generated files

Generated code is put together from whole lines.  `unlines` writes lines one after
the other, each with its line end, and `Code` is a text that grows at its end.
`Code.text_lines` says that both ways give the same text.
-/

namespace CallBridge.Generated

/-- The text of lines, each with a line end. -/
def unlines : List String → String
  | [] => ""
  | line :: rest => line ++ "\n" ++ unlines rest

theorem unlines_append (xs ys : List String) :
    unlines (xs ++ ys) = unlines xs ++ unlines ys := by
  induction xs with
  | nil => simp [unlines]
  | cons x xs ih => simp [unlines, ih, String.append_assoc]

/-- Lines make up a text by being joined, each with its line end. -/
theorem unlines_eq_join (lines : List String) :
    unlines lines = String.join (lines.map fun line => line ++ "\n") := by
  induction lines with
  | nil => rfl
  | cons line rest ih => rw [unlines, ih, List.map_cons, String.join_cons]

/-- A text that grows at its end. -/
structure Code where
  text : String := ""
  deriving DecidableEq, Repr

namespace Code

/-- Adds a text as it is. -/
def append (code : Code) (text : String) : Code :=
  ⟨code.text ++ text⟩

/-- Adds a line. -/
def line (code : Code) (text : String) : Code :=
  ⟨code.text ++ text ++ "\n"⟩

/-- Adds an empty line. -/
def blank (code : Code) : Code :=
  ⟨code.text ++ "\n"⟩

/-- Adds lines, one after the other. -/
def lines (code : Code) (texts : List String) : Code :=
  texts.foldl line code

theorem append_empty (code : Code) : code.append "" = code := by
  rw [append, String.append_empty]

theorem append_append (code : Code) (first second : String) :
    (code.append first).append second = code.append (first ++ second) := by
  rw [append, append, append, String.append_assoc]

@[simp]
theorem lines_nil (code : Code) : code.lines [] = code :=
  rfl

@[simp]
theorem lines_cons (code : Code) (text : String) (texts : List String) :
    code.lines (text :: texts) = (code.line text).lines texts :=
  rfl

theorem lines_append (code : Code) (first second : List String) :
    code.lines (first ++ second) = (code.lines first).lines second :=
  List.foldl_append

/-- An empty line is a line without a text. -/
theorem blank_eq_line (code : Code) : code.blank = code.line "" := by
  rw [blank, line, String.append_empty]

theorem text_lines (code : Code) (texts : List String) :
    (code.lines texts).text = code.text ++ unlines texts := by
  induction texts generalizing code with
  | nil => exact String.append_empty.symm
  | cons text rest ih =>
    rw [lines_cons, ih, line, unlines]
    simp only [String.append_assoc]

end Code

end CallBridge.Generated

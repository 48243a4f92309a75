/-!
# Reports of rejected sources

A source that cannot be read is rejected with a report: a code, a message and,
as far as they are known, the place in bytes from the start, the line and
the column, both counted from one, and the text of the line.  `Report.text` is
the form in which users see it; the line is shown only together with a column,
with a caret under that column.
-/

namespace CallBridge

/-- Why a source is rejected, and where. -/
structure Report where
  code : String
  message : String
  offset : Option Nat := none
  line : Option Nat := none
  column : Option Nat := none
  snippet : Option String := none
  deriving DecidableEq, Repr

namespace Report

/-- A caret under a column. -/
def caret (column : Nat) : String :=
  String.ofList (List.replicate (column - 1) ' ' ++ ['^'])

/-- The place, as far as it is known.  A column without a line is not shown, and
an offset gives way to a line that has no column. -/
def place (r : Report) : String :=
  match r.line, r.column, r.offset with
  | some line, some column, some offset => s!" @line={line},col={column} @pos={offset}"
  | some line, some column, none => s!" @line={line},col={column}"
  | some line, none, _ => s!" @line={line}"
  | none, _, some offset => s!" @pos={offset}"
  | none, _, none => ""

/-- The line complained of with a caret under the column. -/
def excerpt (r : Report) : String :=
  match r.snippet, r.column with
  | some snippet, some column => "\n" ++ snippet ++ "\n" ++ caret column
  | _, _ => ""

/-- The report as users see it. -/
def text (r : Report) : String :=
  "[" ++ r.code ++ "] " ++ r.message ++ r.place ++ r.excerpt

end Report

end CallBridge

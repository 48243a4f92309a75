import CallBridge.Header.Argument
import CallBridge.Header.Prototype
import CallBridge.Header.Section
import CallBridge.Report
import CallBridge.Text.Lines

/-!
# Reading a header

A header is read line by line.  A section comment sets the feature of what
follows, a prototype declares a function, and every other line is passed over.
The first argument that cannot be read ends the reading.
-/

namespace CallBridge.Header

open Text

/-- Why a header cannot be read. -/
inductive Fault where
  /-- An argument is blank.  Line and column count from one. -/
  | emptyArgument (index line column : Nat) (snippet : String)
  /-- An argument would be cut inside a character. -/
  | cutsCharacter
  deriving DecidableEq, Repr

/-- The report of a fault.  A cut inside a character has none. -/
def Fault.report? : Fault → Option Report
  | .emptyArgument index line column snippet =>
    some {
      code := "HDR201"
      message := toString (index + 1) ++ " 番目の引数が空です"
      line := some line
      column := some column
      snippet := some snippet }
  | .cutsCharacter => none

/-- The column of a place in the arguments: counted from the first occurrence of
the arguments in the line. -/
def argumentColumn (raw arguments : List Char) (offset : Nat) : Nat :=
  match offsetOf? arguments raw with
  | some base => base + offset + 1
  | none => offset

/-- What a line is: a section comment, a prototype or something else. -/
inductive LineKind where
  | heading (feature : String)
  | declares (prototype : Prototype)
  | other
  deriving DecidableEq, Repr

/-- The kind of a line. -/
def lineKind (raw : List Char) : LineKind :=
  match sectionFeature? (trim raw) with
  | some feature => .heading feature
  | none =>
    match Prototype.find? (trim raw) with
    | some p => .declares p
    | none => .other

/-- The declaration of a prototype on the line with a given number. -/
def declaration (feature : String) (number : Nat) (raw : List Char) (p : Prototype) :
    Except Fault Declaration :=
  match paramList p.arguments with
  | .ok params =>
    .ok ⟨Signature.normal (String.ofList p.name) (String.ofList p.returnType) params, feature⟩
  | .error (.blank index offset) =>
    .error (.emptyArgument index number (argumentColumn raw p.arguments offset)
      (String.ofList raw))
  | .error .cutsCharacter => .error .cutsCharacter

/-- The declarations of the lines from a given number on. -/
def declarationsFrom (feature : String) (number : Nat) :
    List (List Char) → Except Fault (List Declaration)
  | [] => .ok []
  | raw :: rest =>
    match lineKind raw with
    | .heading feature => declarationsFrom feature (number + 1) rest
    | .other => declarationsFrom feature (number + 1) rest
    | .declares p => do
      let d ← declaration feature number raw p
      let ds ← declarationsFrom feature (number + 1) rest
      .ok (d :: ds)

/-- The declarations of a header, in order. -/
def declarations (text : String) : Except Fault (List Declaration) :=
  declarationsFrom initialFeature 1 (lines text.toList)

end CallBridge.Header

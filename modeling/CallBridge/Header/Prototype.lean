import CallBridge.Text.Match
import CallBridge.Text.Word

/-!
# Prototype lines

A header declares a driver function on one line:

    GLAPI <return type> APIENTRY <name>(<arguments>);

The parts may stand apart by blanks, anything may stand before `GLAPI` as long as
no word character touches it, and anything may follow the semicolon.  A line can
often be read in more than one way.  `Prototype.find?` takes the reading with the
first possible `GLAPI`, then the most blanks after it, then the shortest return
type, then the longest arguments:

* `argumentsOf?` finds the longest arguments;
* `ofCallee?` reads everything from `APIENTRY` on, where nothing is left to choose;
* `ofReturn?` tries return types from the shortest up;
* `ofMarker?` takes all blanks after the marker, or leaves two of them: one that is the
  return type itself, and one between it and `APIENTRY`;
* `afterMarker?` finds the first marker with a blank behind it.  No other one has to be
  looked at: what a later marker could begin, the first one could begin as well, with a
  longer return type.
-/

namespace CallBridge.Header

open Text

/-- The parts of a prototype line. -/
structure Prototype where
  returnType : List Char
  name : List Char
  arguments : List Char
  deriving DecidableEq, Repr

namespace Prototype

/-- The word that begins a prototype. -/
def marker : List Char :=
  ['G', 'L', 'A', 'P', 'I']

/-- The word between the return type and the name. -/
def convention : List Char :=
  ['A', 'P', 'I', 'E', 'N', 'T', 'R', 'Y']

/-- Whether only blanks stand before a semicolon. -/
def endsCall (cs : List Char) : Bool :=
  (trimStart cs).head? == some ';'

/-- The longest arguments: all up to the last closing parenthesis that ends the
call. -/
def argumentsOf? : List Char → Option (List Char)
  | [] => none
  | c :: cs =>
    match argumentsOf? cs with
    | some arguments => some (c :: arguments)
    | none => if c = ')' ∧ endsCall cs then some [] else none

/-- The name and the arguments, read from the blanks before `APIENTRY` on. -/
def ofCallee? (cs : List Char) : Option (List Char × List Char) := do
  let cs ← afterBlanks? cs
  let cs ← after? convention cs
  let cs ← afterBlanks? cs
  let (name, cs) ← run? isWordChar cs
  let cs ← after? ['('] (trimStart cs)
  let arguments ← argumentsOf? cs
  some (name, arguments)

/-- The shortest return type, of one character or more, that a name and arguments
follow. -/
def ofReturn? : List Char → Option Prototype
  | [] => none
  | c :: cs =>
    match ofCallee? cs with
    | some (name, arguments) => some ⟨[c], name, arguments⟩
    | none => (ofReturn? cs).map fun p => { p with returnType := c :: p.returnType }

/-- A return type that is a blank, the last but one of three or more blanks. -/
def ofBlanks? (cs : List Char) : Option Prototype :=
  let count := (cs.takeWhile isBlank).length
  match cs.drop (count - 2) with
  | [] => none
  | c :: rest =>
    if 3 ≤ count then
      (ofCallee? rest).map fun (name, arguments) => ⟨[c], name, arguments⟩
    else none

/-- A return type after one or more blanks, after as many blanks as possible. -/
def ofMarker? (cs : List Char) : Option Prototype :=
  match afterBlanks? cs with
  | none => none
  | some rest => (ofReturn? rest).or (ofBlanks? cs)

/-- What follows the first marker with a blank behind it.  `inWord` says whether a word
character stands right before the text. -/
def afterMarkerFrom? (inWord : Bool) : List Char → Option (List Char)
  | [] => none
  | c :: cs =>
    match after? marker (c :: cs) with
    | some rest =>
      if !inWord && (rest.head?.map isBlank).getD false then some rest
      else afterMarkerFrom? (isWordChar c) cs
    | none => afterMarkerFrom? (isWordChar c) cs

/-- What follows the first marker of a line with a blank behind it. -/
def afterMarker? (line : List Char) : Option (List Char) :=
  afterMarkerFrom? false line

/-- The prototype that a line declares. -/
def find? (line : List Char) : Option Prototype :=
  (afterMarker? line).bind ofMarker?

end Prototype

end CallBridge.Header

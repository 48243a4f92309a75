import CallBridge.Signature
import CallBridge.Text.Bytes
import CallBridge.Text.Word

/-!
# Argument lists of prototypes

An argument list is empty, or `void`, or arguments between commas.  An argument
is a type and a name, or a type alone: it has no name if it ends in a word that
can only be part of a type, or if nothing but qualifiers stands before its last
word.  A nameless argument is called `p` and its index.  An array argument loses
its brackets and becomes a pointer.

Two things stop the reading.  A blank argument is a fault with a place.  An
argument is cut after its last character that is no identifier character, one
byte further on; where that character takes several bytes, the cut would fall
inside it, and reading stops without a report.
-/

namespace CallBridge.Header

open Text

/-- Words that name a type or a part of one, and never an argument. -/
def typeWords : List (List Char) :=
  ["void", "char", "short", "int", "long", "float", "double", "signed", "unsigned",
    "const"].map String.toList

/-- Words that qualify a type and are no type themselves. -/
def qualifiers : List (List Char) :=
  ["const", "volatile"].map String.toList

/-- Why an argument list cannot be read. -/
inductive ArgumentFault where
  /-- An argument is blank.  It starts `offset` bytes into the list. -/
  | blank (index offset : Nat)
  /-- An argument would be cut inside a character. -/
  | cutsCharacter
  deriving DecidableEq, Repr

/-- The identifier at the end of an argument, and all before it. -/
def splitName (base : List Char) : List Char × List Char :=
  let name := (base.reverse.takeWhile isIdentChar).reverse
  let before := (base.reverse.dropWhile isIdentChar).reverse
  (before, name)

/-- Whether the cut one byte after the start of the last character falls inside
it. -/
def cutsLast (before : List Char) : Bool :=
  match before.getLast? with
  | some c => decide (1 < c.utf8Size)
  | none => false

/-- The argument without blanks around it and without brackets. -/
def argumentBase (argument : List Char) : List Char :=
  let argument := trim argument
  if '[' ∈ argument then trimEnd (argument.takeWhile (· != '[')) else argument

/-- Whether an argument split into a type and a name has no name after all. -/
def isNameless (type name : List Char) : Bool :=
  (words type).all (qualifiers.contains ·) || name.isEmpty || typeWords.contains name

/-- The parameter at an index that an argument declares.  `none` if the argument
would be cut inside a character. -/
def parameter? (index : Nat) (argument : List Char) : Option Parameter :=
  let base := argumentBase argument
  let (before, name) := splitName base
  if cutsLast before then none
  else
    let (type, name) :=
      if isNameless before name then (base, "p" ++ toString index)
      else (before, String.ofList name)
    let type := if '[' ∈ argument then trim type ++ [' ', '*'] else type
    some (Parameter.normal (String.ofList type) name)

/-- The parameters that arguments declare.  `index` and `offset` are those of the
first argument. -/
def parametersFrom (index offset : Nat) :
    List (List Char) → Except ArgumentFault (List Parameter)
  | [] => .ok []
  | argument :: rest =>
    if (trim argument).isEmpty then .error (.blank index offset)
    else
      match parameter? index argument with
      | none => .error .cutsCharacter
      | some p => do
        let ps ← parametersFrom (index + 1) (offset + width argument + 1) rest
        .ok (p :: ps)

/-- The parameters that an argument list declares. -/
def paramList (arguments : List Char) : Except ArgumentFault ParamList :=
  let inner := trim arguments
  if inner.isEmpty || inner == "void".toList then .ok .void
  else do
    let ps ← parametersFrom 0 0 (pieces (· == ',') arguments)
    .ok (ParamList.ofList ps)

end CallBridge.Header

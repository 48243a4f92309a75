import CallBridge.Text.Blank

/-!
# Signatures of driver functions

A declaration is a signature together with the feature that introduced it.  The
text of a type is kept as the source gave it, except for its white space:
`normalizeType` joins the words with single spaces and puts a space before a
star that follows a word.

* `Signature.text` writes a signature as a C prototype;
* `declarator` writes a type and a name as one declarator, with no space after a
  star;
* `Signature.procType` is the name of the matching function pointer type.
-/

namespace CallBridge

open Text

/-- Puts a space before each star that follows something other than a space or a
star.  `previous` is the last character written. -/
def spaceStars : Option Char → List Char → List Char
  | _, [] => []
  | none, c :: cs => c :: spaceStars (some c) cs
  | some p, c :: cs =>
    if c = '*' ∧ p ≠ ' ' ∧ p ≠ '*' then ' ' :: '*' :: spaceStars (some '*') cs
    else c :: spaceStars (some c) cs

/-- The normal form of a type text, on characters. -/
def normalizeTypeChars (cs : List Char) : List Char :=
  spaceStars none (joinWith [' '] (words cs))

/-- The normal form of a type text: words one space apart, stars set off from the
word before them. -/
def normalizeType (s : String) : String :=
  String.ofList (normalizeTypeChars s.toList)

/-- A type and a name as one declarator.  A type that ends in a star takes no
space. -/
def declarator (type name : String) : String :=
  if type.toList.getLast? = some '*' then type ++ name else type ++ " " ++ name

/-- One parameter of a function. -/
structure Parameter where
  type : String
  name : String
  deriving DecidableEq, Repr

/-- A parameter with its type in normal form and its name trimmed. -/
def Parameter.normal (type name : String) : Parameter :=
  ⟨normalizeType type, trimmed name⟩

/-- The parameters of a function.  `void` says outright that there are none. -/
inductive ParamList where
  | void
  | list (parameters : List Parameter)
  deriving DecidableEq, Repr

namespace ParamList

/-- A list without parameters is `void`. -/
def ofList : List Parameter → ParamList
  | [] => void
  | p :: ps => list (p :: ps)

/-- The parameters, in order. -/
def toList : ParamList → List Parameter
  | void => []
  | list ps => ps

/-- Whether there is no parameter. -/
def isEmpty (params : ParamList) : Bool :=
  params.toList.isEmpty

@[simp] theorem toList_ofList (ps : List Parameter) : (ofList ps).toList = ps := by
  cases ps <;> rfl

end ParamList

/-- Name, return type and parameters of a function. -/
structure Signature where
  name : String
  returnType : String
  params : ParamList
  deriving DecidableEq, Repr

/-- Letters of ASCII in capitals, all else unchanged. -/
def asciiUpper (s : String) : String :=
  String.ofList (s.toList.map Char.toUpper)

/-- Letters of ASCII in small letters, all else unchanged. -/
def asciiLower (s : String) : String :=
  String.ofList (s.toList.map Char.toLower)

namespace Signature

/-- A signature with its return type in normal form and its name trimmed. -/
def normal (name returnType : String) (params : ParamList) : Signature :=
  ⟨trimmed name, normalizeType returnType, params⟩

/-- Whether the return type is `void`, in small or capital letters. -/
def returnsVoid (s : Signature) : Bool :=
  asciiLower (trimmed s.returnType) == "void"

/-- The name of the function pointer type. -/
def procType (s : Signature) : String :=
  "PFN" ++ asciiUpper s.name ++ "PROC"

/-- The parameters between the parentheses of a prototype. -/
def paramText (params : ParamList) : String :=
  if params.isEmpty then "void"
  else String.intercalate ", " (params.toList.map fun p => declarator p.type p.name)

/-- The signature as a C prototype without its semicolon. -/
def text (s : Signature) : String :=
  s.returnType ++ " " ++ s.name ++ "(" ++ paramText s.params ++ ")"

end Signature

/-- A signature and the feature that introduced it: an API version or an
extension. -/
structure Declaration where
  signature : Signature
  feature : String
  deriving DecidableEq, Repr

/-- The name of the declared function. -/
def Declaration.name (d : Declaration) : String :=
  d.signature.name

end CallBridge

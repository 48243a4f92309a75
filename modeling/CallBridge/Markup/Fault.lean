import CallBridge.Markup.Token

/-!
# Faults in documents

A document that cannot be read has one fault: a reason, and the place at which the
offending token begins.
-/

namespace CallBridge.Markup

/-- A place in a document: a line, and a character on it, both counted from one. -/
structure Position where
  line : Nat := 1
  column : Nat := 1
  deriving DecidableEq, Repr

/-- The place behind a character. -/
def Position.after (p : Position) (c : Char) : Position :=
  if c = '\n' then { line := p.line + 1 } else { p with column := p.column + 1 }

/-- Why a document cannot be read. -/
inductive Reason where
  /-- A token that may not stand where it stands. -/
  | unexpected (token : Token)
  /-- A delimiter that has been begun and does not go on as it should. -/
  | broken (begun : List Char) (c : Char)
  | outsideRoot (token : Token)
  | badCharacter (c : Char)
  | badName
  | nameTooLong
  | unboundScope
  | forbiddenDeclaration
  | repeatedAttribute
  | tooManyAttributes
  | mismatchedEnd
  | badReference
  | unknownEntity
  | entityTooDeep
  | badDeclaration
  | badEncoding
  | notAscii
  | misplacedDoctype
  | endedEarly
  deriving DecidableEq, Repr

/-- What a reason says. -/
def Reason.message : Reason → String
  | unexpected token => "unexpected " ++ String.ofList token.text
  | broken begun c => "unexpected " ++ c.toString ++ " after " ++ String.ofList begun
  | outsideRoot token => "outside of the root element: " ++ String.ofList token.text
  | badCharacter _ => "character that no document may hold"
  | badName => "malformed name"
  | nameTooLong => "name that is too long"
  | unboundScope => "undeclared namespace scope"
  | forbiddenDeclaration => "namespace declaration that is not allowed"
  | repeatedAttribute => "repeated attribute"
  | tooManyAttributes => "too many attributes"
  | mismatchedEnd => "end tag without its start tag"
  | badReference => "malformed reference"
  | unknownEntity => "undeclared entity"
  | entityTooDeep => "entities are nested too deep"
  | badDeclaration => "malformed declaration"
  | badEncoding => "unsupported encoding"
  | notAscii => "character outside of the declared encoding"
  | misplacedDoctype => "misplaced document type"
  | endedEarly => "document ends too early"

/-- Why and where a document cannot be read. -/
structure Fault extends Position where
  reason : Reason
  deriving DecidableEq, Repr

end CallBridge.Markup

import CallBridge.Markup.Chars
import CallBridge.Markup.Fault
import CallBridge.Markup.Word

/-!
# Qualified names

An element or attribute name may have a scope in front, set off by a colon.  The
scope has to be declared by an attribute `xmlns:scope` of the element or of one
around it.  The scopes `xml` and `xmlns` are always there and may not be
declared anew.
-/

namespace CallBridge.Markup

/-- A name with its scope, if it has one. -/
structure QName where
  scope : Option String
  base : String
  deriving DecidableEq, Repr

/-- The qualified name that a run of name characters spells. -/
def QName.ofChars? (name : List Char) : Option QName :=
  if name.contains ':' then
    let scope := name.takeWhile (· != ':')
    let base := (name.dropWhile (· != ':')).drop 1
    if scope.isEmpty || base.isEmpty || base.contains ':' then none
    else some ⟨some (String.ofList scope), String.ofList base⟩
  else if name.isEmpty then none
  else some ⟨none, String.ofList name⟩

/-- A name wider than this takes no more characters. -/
def maxNameWidth : Nat :=
  0x40000

/-- The outcome of one more token of a qualified name. -/
inductive NameStep where
  | more (name : Word)
  /-- One more character, which is the colon. -/
  | colon (name : Word)
  | done (name : QName)
  deriving DecidableEq, Repr

/-- The name is complete. -/
def NameStep.ofWord (name : Word) : Except Reason NameStep :=
  match QName.ofChars? name.toList with
  | some name => .ok (.done name)
  | none => .error .badName

/-- Takes one more token of a qualified name: a name character, or a colon unless it
would be the first character or comes after another colon.  A blank ends the name, and
so does a delimiter that is among `ends`. -/
def nameStep (afterColon : Bool) (name : Word) (ends : List Token) (t : Token) :
    Except Reason NameStep :=
  match t with
  | .char c =>
    if c = ':' then
      if name.isEmpty || afterColon then .error (.unexpected t) else .ok (.colon (name.push c))
    else if (if name.isEmpty then isNameStart c else isNameChar c) then
      if maxNameWidth < name.width then .error .nameTooLong else .ok (.more (name.push c))
    else if isSpace c then NameStep.ofWord name
    else .error (.unexpected t)
  | _ => if ends.contains t then NameStep.ofWord name else .error (.unexpected t)

/-- The scope that is bound to the names of the format itself. -/
def xmlScope : String :=
  "xml"

/-- The scope of the attributes that declare scopes. -/
def declaringScope : String :=
  "xmlns"

/-- The namespace of the scope `xml`. -/
def xmlSpace : String :=
  "http://www.w3.org/XML/1998/namespace"

/-- The namespace of the scope `xmlns`. -/
def declaringSpace : String :=
  "http://www.w3.org/2000/xmlns/"

/-- Whether a name may stand in a tag as an element name. -/
def QName.isElementName (name : QName) : Bool :=
  name.scope != some xmlScope && name.scope != some declaringScope

/-- Whether a scope is declared. -/
def isBound (scopes : List String) : Option String → Bool
  | none => true
  | some scope => scope == xmlScope || scope == declaringScope || scopes.contains scope

/-- What an attribute is: a declaration of a scope, a declaration of the default
namespace, a declaration that is not allowed, or an attribute of the element. -/
inductive AttributeKind where
  | declares (scope : String)
  | declaresDefault
  | forbidden
  | ordinary
  deriving DecidableEq, Repr

/-- The kind of an attribute. -/
def attributeKind (name : QName) (value : String) : AttributeKind :=
  if name.scope = some declaringScope then
    if name.base = declaringScope then .forbidden
    else if name.base = xmlScope && value != xmlSpace then .forbidden
    else if value = "" then .forbidden
    else .declares name.base
  else if name.scope = none && name.base = declaringScope then
    if [declaringScope, xmlScope, xmlSpace, declaringSpace].contains value then .forbidden
    else .declaresDefault
  else .ordinary

end CallBridge.Markup

import CallBridge.Markup.Chars
import CallBridge.Markup.Fault
import CallBridge.Markup.Word

/-!
# References

A reference stands between an ampersand and a semicolon.  It gives a character by
its code point, in decimal or hexadecimal, or one of the five predefined
characters by name, or a text by the name of an entity that the document
declares.  Entities are kept with the newest last, and the first declaration of
a name counts.
-/

namespace CallBridge.Markup

/-- What the document has said about itself so far: whether it is written in
version 1.1, and the entities it has declared.  The names of parameter entities
begin with a percent sign. -/
structure Settings where
  revised : Bool := false
  entities : List (List Char × List Char) := []
  deriving Repr

/-- The text of a declared entity. -/
def Settings.entity? (s : Settings) (name : List Char) : Option (List Char) :=
  (s.entities.find? (·.1 == name)).map Prod.snd

/-- Declares an entity, unless its name is taken. -/
def Settings.declare (s : Settings) (name text : List Char) : Settings :=
  if (s.entity? name).isSome then s else { s with entities := s.entities ++ [(name, text)] }

/-- The value of a digit in a base of at most sixteen. -/
def digit? (base : Nat) (c : Char) : Option Nat :=
  let value :=
    if '0' ≤ c ∧ c ≤ '9' then some (c.toNat - '0'.toNat)
    else if 'a' ≤ c ∧ c ≤ 'f' then some (c.toNat - 'a'.toNat + 10)
    else if 'A' ≤ c ∧ c ≤ 'F' then some (c.toNat - 'A'.toNat + 10)
    else none
  value.filter (· < base)

/-- The number that digits stand for, after the digits read so far. -/
def numberFrom? (base : Nat) (sofar : Nat) : List Char → Option Nat
  | [] => some sofar
  | c :: cs => (digit? base c).bind fun d => numberFrom? base (sofar * base + d) cs

/-- The number that one or more digits stand for.  A plus sign may stand in
front. -/
def number? (base : Nat) (cs : List Char) : Option Nat :=
  let digits := if cs.head? = some '+' then cs.tail else cs
  if digits.isEmpty then none else numberFrom? base 0 digits

/-- The character that a numeric reference stands for, without its number sign. -/
def numericChar? (revised : Bool) (cs : List Char) : Option Char :=
  let point :=
    match cs with
    | 'x' :: digits => number? 16 digits
    | digits => number? 10 digits
  point.bind fun n =>
    if n.isValidChar ∧ isChar revised (Char.ofNat n) then some (Char.ofNat n) else none

/-- The five characters that have a name from the start. -/
def predefined? (name : List Char) : Option Char :=
  if name = ['l', 't'] then some '<'
  else if name = ['g', 't'] then some '>'
  else if name = ['a', 'm', 'p'] then some '&'
  else if name = ['a', 'p', 'o', 's'] then some '\''
  else if name = ['q', 'u', 'o', 't'] then some '"'
  else none

/-- What a reference stands for. -/
inductive Expansion where
  | char (c : Char)
  | entity (text : List Char)
  deriving DecidableEq, Repr

/-- The next character of a reference. -/
def extendsReference (name : Word) (c : Char) : Bool :=
  if name.isEmpty then isNameStart c || c == '#' else isNameChar c

/-- What a reference with a given name stands for. -/
def Settings.expand (s : Settings) (name : List Char) : Except Reason Expansion :=
  match predefined? name with
  | some c => .ok (.char c)
  | none =>
    match name with
    | [] => .error .badReference
    | '#' :: digits =>
      match numericChar? s.revised digits with
      | some c => .ok (.char c)
      | none => .error .badReference
    | name =>
      match s.entity? name with
      | some text => .ok (.entity text)
      | none => .error .unknownEntity

/-- The outcome of one more token of a reference. -/
inductive ReferenceStep where
  | more (name : Word)
  | done (expansion : Expansion)
  deriving DecidableEq, Repr

/-- Takes one more token of a reference, after its ampersand. -/
def Settings.referenceStep (s : Settings) (name : Word) (t : Token) :
    Except Reason ReferenceStep :=
  match t with
  | .char c =>
    if extendsReference name c then .ok (.more (name.push c)) else .error (.unexpected t)
  | .semicolon =>
    match s.expand name.toList with
    | .ok expansion => .ok (.done expansion)
    | .error reason => .error reason
  | _ => .error (.unexpected t)

end CallBridge.Markup

import CallBridge.Markup.Reference

/-!
# Quoted values

The value of an attribute, and of an item of the declaration at the top of a
document, stands between two equal quotes.  Blanks may stand before the first
quote.  References are expanded on the way, and the text of an entity is plain
text here.  Line ends and tabs are kept.  Of the delimiters only those that open a
tag or an instruction are refused; the others are text.
-/

namespace CallBridge.Markup

/-- A value that is being read: the quote it began with, the characters so far
with the newest first, and the name of the reference that is being read. -/
structure Value where
  quote : Option Quote := none
  chars : List Char := []
  reference : Option Word := none
  deriving DecidableEq, Repr

/-- The outcome of one more token. -/
inductive ValueStep where
  | more (value : Value)
  | done (text : String)
  deriving DecidableEq, Repr

namespace Value

/-- More characters of text. -/
def write (v : Value) (text : List Char) : Value :=
  { v with chars := text.reverse ++ v.chars, reference := none }

/-- A token before the first quote. -/
def beforeQuote (v : Value) (t : Token) : Except Reason ValueStep :=
  match t with
  | .quote q => .ok (.more { v with quote := some q })
  | .char c => if isSpace c then .ok (.more v) else .error (.unexpected t)
  | _ => .error (.unexpected t)

/-- A token between the quotes. -/
def inside (s : Settings) (v : Value) (q : Quote) (t : Token) : Except Reason ValueStep :=
  match t with
  | .quote q' =>
    if q' = q then .ok (.done (String.ofList v.chars.reverse)) else .ok (.more (v.write t.text))
  | .ampersand => .ok (.more { v with reference := some {} })
  | .tagOpen => .error (.unexpected t)
  | .instructionOpen => .error (.unexpected t)
  | .char c =>
    if isLiteral s.revised c then .ok (.more (v.write [c])) else .error (.badCharacter c)
  | _ => .ok (.more (v.write t.text))

/-- A token of a reference. -/
def inReference (s : Settings) (v : Value) (name : Word) (t : Token) :
    Except Reason ValueStep :=
  match s.referenceStep name t with
  | .ok (.more name) => .ok (.more { v with reference := some name })
  | .ok (.done (.char c)) => .ok (.more (v.write [c]))
  | .ok (.done (.entity text)) => .ok (.more (v.write text))
  | .error reason => .error reason

/-- Takes one more token. -/
def step (s : Settings) (v : Value) (t : Token) : Except Reason ValueStep :=
  match v.reference, v.quote with
  | some name, _ => v.inReference s name t
  | none, none => v.beforeQuote t
  | none, some q => v.inside s q t

end Value

end CallBridge.Markup

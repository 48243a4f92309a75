import CallBridge.Markup.Element
import CallBridge.Markup.Name
import CallBridge.Markup.Scanner
import CallBridge.Markup.Value

/-!
# The state of a document reader

A document is read one token at a time.  `Reader` is what is known between two
tokens: the place in the grammar (`Place`), the elements that are still open, the
text read since the last markup, and the lines of the pieces of the document.

Every step either gives the next reader or a fault.  A fault names the place at
which the offending token begins.
-/

namespace CallBridge.Markup

/-- How far a document has come: nothing read yet, something read, a document type
read, an element begun. -/
inductive Stage where
  | start
  | begun
  | typed
  | rooted
  deriving DecidableEq, Repr

/-- Encodings that a document may be read in. -/
inductive Encoding where
  | utf8
  | latin
  | ascii
  deriving DecidableEq, Repr

/-- The items of the declaration at the top of a document. -/
inductive Item where
  | version
  | encoding
  | standalone
  deriving DecidableEq, Repr

/-- The letter that begins the word of an item. -/
def Item.initial : Item → Char
  | .version => 'v'
  | .encoding => 'e'
  | .standalone => 's'

/-- What is left of the word of an item behind its first letter. -/
def Item.rest : Item → String
  | .version => "ersion"
  | .encoding => "ncoding"
  | .standalone => "tandalone"

/-- Places in the declaration at the top of a document. -/
inductive DeclarationPlace where
  /-- Between items; the item before, if there is one. -/
  | gap (last : Option Item)
  /-- Inside the word of an item, behind its first letter. -/
  | word (item : Item) (name : Word)
  /-- After the word of an item, before the equals sign. -/
  | equals (item : Item)
  | value (item : Item) (value : Value)
  /-- Right after a value. -/
  | closing (item : Item)
  deriving DecidableEq, Repr

/-- Places in the value of an entity declaration. -/
inductive EntityPlace where
  | plain
  | ampersand
  | number (digits : Word)
  | parameter (name : Word)
  deriving DecidableEq, Repr

/-- Places in a document type. -/
inductive DoctypePlace where
  | outside
  | quoted (quote : Quote)
  | comment
  | keyword (word : Word)
  | beforeName
  | parameterMark
  | entityName (name : Word)
  | beforeValue (name : Word)
  /-- In the value of an entity; the text so far has the newest character first. -/
  | value (name : Word) (quote : Quote) (text : List Char) (place : EntityPlace)
  | skipped
  | parameter (name : Word)
  deriving DecidableEq, Repr

/-- A start tag that is being read: its name, its attributes with the newest first,
and the scopes that hold inside it. -/
structure Tag where
  name : QName
  attributes : List (QName × String) := []
  scopes : List String
  deriving DecidableEq, Repr

/-- Places in a start tag after its name. -/
inductive TagPlace where
  | gap
  | attributeName (name : Word)
  | equals (name : QName)
  | value (name : QName) (value : Value)
  | closing
  deriving DecidableEq, Repr

/-- Places in a document. -/
inductive Place where
  /-- Between markup. -/
  | content
  | comment
  | cdata
  | target (name : Word)
  | instruction
  | declaration (place : DeclarationPlace)
  | doctype (place : DoctypePlace)
  | startName (name : Word)
  | startTag (tag : Tag) (place : TagPlace)
  | endName (name : Word)
  | endTag (name : QName)
  | reference (name : Word)
  deriving DecidableEq, Repr

/-- The lines of the pieces of a document: declarations, instructions, runs of text and
tags.  A piece that begins announces its line.  A piece that is complete takes the
oldest line announced, or that of its own last token if none is left.

Not every piece announces itself: a run of text that begins with a reference or a
semicolon does not, and one instruction without data, right at the start of a
document, announces itself twice.  The pieces behind it take lines that are not
their own. -/
structure Lines where
  /-- The line of the last piece that is complete. -/
  current : Nat := 1
  /-- The lines announced since, the oldest first. -/
  announced : List Nat := []
  deriving DecidableEq, Repr

/-- A piece begins on a line. -/
def Lines.announce (l : Lines) (line : Nat) : Lines :=
  { l with announced := l.announced ++ [line] }

/-- A piece is complete, and its last token stands on a line. -/
def Lines.deliver (l : Lines) (line : Nat) : Lines :=
  match l.announced with
  | [] => { l with current := line }
  | oldest :: rest => ⟨oldest, rest⟩

/-- An element whose end tag is still to come.  The children read so far have the
newest first. -/
structure Frame where
  tag : Tag
  line : Nat
  children : List Node := []
  deriving Repr

/-- What is known between two tokens of a document. -/
structure Reader where
  scanner : Scanner := {}
  place : Place := .content
  /-- The open elements, the innermost first. -/
  frames : List Frame := []
  /-- The text since the last markup, the newest character first. -/
  run : List Char := []
  /-- The last root element that has been closed. -/
  root : Option Element := none
  stage : Stage := .start
  settings : Settings := {}
  /-- The encoding that the declaration names. -/
  label : Option String := none
  /-- The document begins with a byte order mark. -/
  marked : Bool := false
  encoding : Encoding := .utf8
  /-- A colon has been read in the last name.  A name is told to be another one once no
  more than one byte of it has been read. -/
  afterColon : Bool := false
  lines : Lines := {}
  /-- The place that has been reached. -/
  position : Position := {}
  /-- The place at which the current token begins. -/
  mark : Position := {}
  /-- Text of an entity that is to be read next. -/
  pending : List Char := []
  /-- Entities expanded since the last character of the document itself. -/
  expansions : Nat := 0
  deriving Repr

namespace Reader

/-- A fault at the current token. -/
def fail {α : Type} (r : Reader) (reason : Reason) : Except Fault α :=
  .error ⟨r.mark, reason⟩

/-- A fault because of a token. -/
def refuse {α : Type} (r : Reader) (t : Token) : Except Fault α :=
  r.fail (.unexpected t)

/-- The reader at another place. -/
def goto (r : Reader) (place : Place) : Except Fault Reader :=
  .ok { r with place := place }

/-- Whether no element is open. -/
def isOutside (r : Reader) : Bool :=
  r.frames.isEmpty

/-- The scopes that hold where the reader stands. -/
def scopes (r : Reader) : List String :=
  match r.frames with
  | [] => []
  | frame :: _ => frame.tag.scopes

/-- A piece of the document begins at the current token. -/
def announce (r : Reader) : Reader :=
  { r with lines := r.lines.announce r.mark.line }

/-- A piece of the document ends at the current token. -/
def deliver (r : Reader) : Reader :=
  { r with lines := r.lines.deliver r.mark.line }

/-- Something has been read.  The beginning of a document is a piece of its own. -/
def begin (r : Reader) : Reader :=
  if r.stage = .start then { r.announce.deliver with stage := .begun } else r

/-- More text, the characters of a reference or a semicolon. -/
def add (r : Reader) (text : List Char) : Reader :=
  { r with run := text.reverse ++ r.run }

/-- More text.  It begins a piece if there is none before it. -/
def write (r : Reader) (text : List Char) : Reader :=
  (if r.run.isEmpty then r.announce else r).add text

/-- Adds a child to the innermost open element. -/
def addChild (r : Reader) (node : Node) : Reader :=
  match r.frames with
  | [] => r
  | frame :: rest => { r with frames := { frame with children := node :: frame.children } :: rest }

/-- Begins a tag or an instruction, which ends the run of text: text read since the
last markup becomes a child. -/
def beginMarkup (r : Reader) : Reader :=
  if r.run.isEmpty then r.announce
  else { (r.addChild (.text (String.ofList r.run.reverse))).announce.deliver with run := [] }

/-- An element is complete: it becomes a child, or the root. -/
def complete (r : Reader) (e : Element) : Reader :=
  match r.frames with
  | [] => { r with root := some e }
  | _ :: _ => r.addChild (Node.ofElement e)

/-- Takes one more token of a qualified name.  `more` is the place inside the name, and
`done` goes on when it is complete. -/
def readName (r : Reader) (name : Word) (ends : List Token) (t : Token) (more : Word → Place)
    (done : Reader → QName → Except Fault Reader) : Except Fault Reader :=
  let r := { r with afterColon := r.afterColon && decide (1 < name.width) }
  match nameStep r.afterColon name ends t with
  | .ok (.more name) => r.goto (more name)
  | .ok (.colon name) => { r with afterColon := true }.goto (more name)
  | .ok (.done name) => done r name
  | .error reason => r.fail reason

end Reader

/-- The element of a start tag on a line and its children, the newest child first. -/
def Tag.element (tag : Tag) (line : Nat) (children : List Node) : Element where
  name := tag.name.base
  attributes := tag.attributes.reverse.map fun a => (a.1.base, a.2)
  line := line
  children := children.reverse

end CallBridge.Markup

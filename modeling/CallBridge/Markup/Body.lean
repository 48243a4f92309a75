import CallBridge.Markup.Prolog

/-!
# Content and tags

What stands between elements and what makes them up.

Text between markup is one run across comments, character data sections and
references; it becomes a child when a tag or an instruction begins.  Several root
elements may follow one another, and the last one counts.  Outside of them only
white space, comments and instructions may stand.

* `Reader.inContent`, `Reader.inComment`, `Reader.inCdata`, `Reader.inReference`,
  `Reader.inStartName`, `Reader.inStartTag`, `Reader.inEndName` and
  `Reader.inEndTag` take one token at the place they are named after.
-/

namespace CallBridge.Markup

/-- An element may have this many attributes. -/
def maxAttributes : Nat :=
  0x10000

namespace Reader

/-- Begins a start tag. -/
def beginTag (r : Reader) : Except Fault Reader :=
  let begun := if r.stage = .start then r.beginMarkup.deliver else r.beginMarkup
  .ok { begun with place := .startName {}, stage := .rooted }

/-- Begins a document type.  It is passed over, and its line with it. -/
def beginDoctype (r : Reader) : Except Fault Reader :=
  if r.stage = .start ∨ r.stage = .begun then
    .ok { r.announce.deliver with place := .doctype .outside, stage := .typed }
  else r.fail .misplacedDoctype

/-- One token between markup outside of all elements. -/
def inOutskirts (r : Reader) (t : Token) : Except Fault Reader :=
  match t with
  | .char c => if isSpace c then .ok r.begin else r.fail (.outsideRoot t)
  | .tagOpen => r.beginTag
  | .instructionOpen => r.beginMarkup.goto (.target {})
  | .commentOpen => r.begin.goto .comment
  | .doctypeOpen => r.beginDoctype
  | _ => r.fail (.outsideRoot t)

/-- One token between markup inside an element. -/
def inElement (r : Reader) (t : Token) : Except Fault Reader :=
  match t with
  | .char c =>
    if isLiteral r.settings.revised c then .ok (r.write [c]) else r.fail (.badCharacter c)
  | .tagOpen => r.beginTag
  | .endTagOpen => r.beginMarkup.goto (.endName {})
  | .instructionOpen => r.beginMarkup.goto (.target {})
  | .commentOpen => r.goto .comment
  | .cdataOpen => r.goto .cdata
  | .ampersand => r.goto (.reference {})
  | .semicolon => .ok (r.add t.text)
  | .doctypeOpen => r.refuse t
  | .declarationOpen => r.refuse t
  | .cdataClose => r.refuse t
  | _ => .ok (r.write t.text)

/-- One token between markup. -/
def inContent (r : Reader) (t : Token) : Except Fault Reader :=
  if r.isOutside then r.inOutskirts t else r.inElement t

/-- One token of a comment. -/
def inComment (r : Reader) (t : Token) : Except Fault Reader :=
  match t with
  | .commentClose => r.goto .content
  | .char c => if isChar r.settings.revised c then .ok r else r.fail (.badCharacter c)
  | _ => .ok r

/-- One token of a character data section. -/
def inCdata (r : Reader) (t : Token) : Except Fault Reader :=
  match t with
  | .cdataClose => r.goto .content
  | .char c =>
    if isChar r.settings.revised c then .ok (r.write [c]) else r.fail (.badCharacter c)
  | _ => .ok (r.write t.text)

/-- One token of a reference in text.  The text of an entity is read as if it stood
there. -/
def inReference (r : Reader) (name : Word) (t : Token) : Except Fault Reader :=
  match r.settings.referenceStep name t with
  | .ok (.more name) => r.goto (.reference name)
  | .ok (.done (.char c)) => (r.add [c]).goto .content
  | .ok (.done (.entity text)) => r.expandInto .content text
  | .error reason => r.fail reason

/-- A start tag is complete: its scopes have to be declared.  An empty element is
complete as well. -/
def endStartTag (r : Reader) (tag : Tag) (isEmpty : Bool) : Except Fault Reader :=
  if (tag.name.scope :: tag.attributes.reverse.map (·.1.scope)).all (isBound tag.scopes) then
    let r := { r.deliver with place := .content }
    let line := r.lines.current
    if isEmpty then .ok (r.complete (tag.element line []))
    else .ok { r with frames := ⟨tag, line, []⟩ :: r.frames }
  else r.fail .unboundScope

/-- One token of a start tag where the tag may end. -/
def closeStartTag (r : Reader) (tag : Tag) (t : Token) : Except Fault Reader :=
  match t with
  | .tagClose => r.endStartTag tag false
  | .emptyTagClose => r.endStartTag tag true
  | .char c => if isSpace c then r.goto (.startTag tag .gap) else r.refuse t
  | _ => r.refuse t

/-- One token of the name in a start tag. -/
def inStartName (r : Reader) (name : Word) (t : Token) : Except Fault Reader :=
  r.readName name [.tagClose, .emptyTagClose] t .startName fun r name =>
    if name.isElementName then r.closeStartTag { name := name, scopes := r.scopes } t
    else r.fail .badName

/-- An attribute is complete. -/
def addAttribute (r : Reader) (tag : Tag) (name : QName) (value : String) :
    Except Fault Tag :=
  match attributeKind name value with
  | .declares scope => .ok { tag with scopes := scope :: tag.scopes }
  | .declaresDefault => .ok tag
  | .forbidden => r.fail .forbiddenDeclaration
  | .ordinary =>
    if maxAttributes ≤ tag.attributes.length then r.fail .tooManyAttributes
    else .ok { tag with attributes := (name, value) :: tag.attributes }

/-- One token of a start tag after its name. -/
def inStartTag (r : Reader) (tag : Tag) (place : TagPlace) (t : Token) : Except Fault Reader :=
  match place with
  | .gap =>
    match t with
    | .char c =>
      if isNameStart c then r.goto (.startTag tag (.attributeName (.ofChar c)))
      else r.closeStartTag tag t
    | _ => r.closeStartTag tag t
  | .attributeName name =>
    r.readName name [.equals] t (fun name => .startTag tag (.attributeName name)) fun r name =>
      if (tag.attributes.map Prod.fst).contains name then r.fail .repeatedAttribute
      else r.goto (.startTag tag (if t = .equals then .value name {} else .equals name))
  | .equals name =>
    if t = .equals then r.goto (.startTag tag (.value name {}))
    else if t.isBlank then .ok r
    else r.refuse t
  | .value name value =>
    match value.step r.settings t with
    | .ok (.more value) => r.goto (.startTag tag (.value name value))
    | .ok (.done text) => do
      let tag ← r.addAttribute tag name text
      r.goto (.startTag tag .closing)
    | .error reason => r.fail reason
  | .closing => r.closeStartTag tag t

/-- An end tag is complete: it has to name the innermost open element. -/
def endElement (r : Reader) (name : QName) : Except Fault Reader :=
  match r.frames with
  | [] => r.fail .mismatchedEnd
  | frame :: rest =>
    if frame.tag.name = name then
      .ok ({ r.deliver with place := .content, frames := rest }.complete
        (frame.tag.element frame.line frame.children))
    else r.fail .mismatchedEnd

/-- One token of an end tag after its name. -/
def inEndTag (r : Reader) (name : QName) (t : Token) : Except Fault Reader :=
  if t = .tagClose then r.endElement name
  else if t.isBlank then r.goto (.endTag name)
  else r.refuse t

/-- One token of the name in an end tag. -/
def inEndName (r : Reader) (name : Word) (t : Token) : Except Fault Reader :=
  r.readName name [.tagClose] t .endName fun r name =>
    if name.isElementName then r.inEndTag name t else r.fail .badName

end Reader

end CallBridge.Markup

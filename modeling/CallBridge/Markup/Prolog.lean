import CallBridge.Markup.Reader

/-!
# Declarations, instructions and document types

What may stand before and between elements without being part of the tree.

A declaration at the very top of a document gives its version and may give its
encoding and whether it stands alone.  Processing instructions are passed over.
A document type may declare entities; all else in it is passed over.

* `Reader.inDeclaration`, `Reader.inTarget`, `Reader.inInstruction` and
  `Reader.inDoctype` take one token at the place they are named after.
-/

namespace CallBridge.Markup

/-- Whether two names agree as far as the shorter one goes, in small or capital
letters. -/
def agrees : List Char → List Char → Bool
  | [], _ => true
  | _, [] => true
  | a :: as, b :: bs => a == b.toLower && agrees as bs

/-- The encoding that a name stands for.  Of the names of encodings that take two
bytes none is listed, for a document that could be read so far is in no such one. -/
def Encoding.ofName? (name : String) : Option Encoding :=
  let isOne (labels : List String) := labels.any fun label => agrees label.toList name.toList
  if isOne ["utf-8", "utf8"] then some .utf8
  else if isOne ["iso-8859-1", "latin1"] then some .latin
  else if isOne ["utf-16", "utf16"] then none
  else if isOne ["ascii", "us-ascii"] then some .ascii
  else none

/-- The items that may follow an item of the declaration. -/
def followers : Option Item → List Item
  | none => [.version]
  | some .version => [.encoding, .standalone]
  | some .encoding => [.standalone]
  | some .standalone => []

/-- Whether a name is `xml`, in small or capital letters. -/
def isReservedTarget (name : List Char) : Bool :=
  name.map Char.toLower == ['x', 'm', 'l']

/-- Whether a token is a blank. -/
def Token.isBlank : Token → Bool
  | .char c => isSpace c
  | _ => false

/-- Whether a token is a character of a name. -/
def Token.isNameChar : Token → Bool
  | .char c => Markup.isNameChar c
  | _ => false

/-- Whether a token ends a reference.  Between quotes the semicolon is a character as
any other. -/
def Token.isSemicolon (t : Token) : Bool :=
  t == .semicolon || t == .char ';'

namespace Reader

/-- The value of an item has been read. -/
def setItem (r : Reader) (item : Item) (text : String) : Except Fault Reader :=
  match item with
  | .version =>
    if text = "1.0" then .ok { r with settings := { r.settings with revised := false } }
    else if text = "1.1" then .ok { r with settings := { r.settings with revised := true } }
    else r.fail .badDeclaration
  | .encoding => .ok { r with label := some text }
  | .standalone => if text = "yes" ∨ text = "no" then .ok r else r.fail .badDeclaration

/-- The declaration has ended: what follows is read in the encoding it names.  With
a byte order mark in front that has to be the one of the mark. -/
def endDeclaration (r : Reader) : Except Fault Reader :=
  let r := { r.deliver with place := .content, stage := .begun }
  match r.label with
  | none => .ok r
  | some name =>
    match Encoding.ofName? name with
    | none => r.fail .badEncoding
    | some encoding =>
      if r.marked ∧ encoding ≠ .utf8 then r.fail .badEncoding
      else .ok { r with encoding := encoding }

/-- One token of the declaration. -/
def inDeclaration (r : Reader) (place : DeclarationPlace) (t : Token) : Except Fault Reader :=
  match place with
  | .gap last =>
    if t.isBlank then r.goto (.declaration (.gap last))
    else if t = .instructionClose ∧ last.isSome then r.endDeclaration
    else
      match (followers last).find? fun item => t == .char item.initial with
      | some item => r.goto (.declaration (.word item {}))
      | none => r.refuse t
  | .word item name =>
    r.readName name [.equals] t (fun name => .declaration (.word item name)) fun r name =>
      if name.base = item.rest then
        r.goto (.declaration (if t = .equals then .value item {} else .equals item))
      else r.fail .badDeclaration
  | .equals item =>
    if t = .equals then r.goto (.declaration (.value item {}))
    else if t.isBlank then r.goto (.declaration (.equals item))
    else r.refuse t
  | .value item value =>
    match value.step r.settings t with
    | .ok (.more value) => r.goto (.declaration (.value item value))
    | .ok (.done text) => do
      let r ← r.setItem item text
      r.goto (.declaration (.closing item))
    | .error reason => r.fail reason
  | .closing item =>
    if t.isBlank then r.goto (.declaration (.gap (some item)))
    else if t = .instructionClose then r.endDeclaration
    else r.refuse t

/-- An instruction without data has ended.  At the very start of a document it counts
as the beginning of the document and is no piece of its own. -/
def endTarget (r : Reader) (name : Word) : Except Fault Reader :=
  if name.isEmpty || isReservedTarget name.toList then r.fail .badName
  else if r.stage = .start then r.begin.goto .content
  else r.deliver.goto .content

/-- One token of the name of an instruction.  The name `xml` begins the declaration at
the very top of a document and is refused elsewhere.  There may be no name at all
before a blank. -/
def inTarget (r : Reader) (name : Word) (t : Token) : Except Fault Reader :=
  match t with
  | .char c =>
    if (if name.isEmpty then isNameStart c else isNameChar c) then
      if maxNameWidth < name.width then r.fail .nameTooLong
      else r.goto (.target (name.push c))
    else if isSpace c then
      if name.toList = ['x', 'm', 'l'] ∧ r.stage = .start then r.goto (.declaration (.gap none))
      else if isReservedTarget name.toList then r.fail .badName
      else r.begin.goto .instruction
    else r.refuse t
  | .instructionClose => r.endTarget name
  | _ => r.refuse t

/-- One token of the data of an instruction. -/
def inInstruction (r : Reader) (t : Token) : Except Fault Reader :=
  match t with
  | .instructionClose => r.deliver.goto .content
  | .char c => if isChar r.settings.revised c then .ok r else r.fail (.badCharacter c)
  | _ => .ok r

/-- Puts the text of an entity in front of what is read next. -/
def expandInto (r : Reader) (place : Place) (text : List Char) : Except Fault Reader :=
  .ok { r with place := place, pending := text }

/-- One token of the value of an entity declaration.  Numeric references and parameter
entities are expanded, other references are kept. -/
def inEntityValue (r : Reader) (name : Word) (quote : Quote) (text : List Char)
    (place : EntityPlace) (t : Token) : Except Fault Reader :=
  let go (text : List Char) (place : EntityPlace) :=
    r.goto (.doctype (.value name quote text place))
  let literal (c : Char) (next : Except Fault Reader) :=
    if isChar r.settings.revised c then next else r.fail (.badCharacter c)
  match place, t with
  | .plain, .quote q =>
    if q = quote then
      .ok { r with
        place := .doctype .skipped
        settings := r.settings.declare name.toList text.reverse }
    else r.refuse t
  | .plain, .ampersand => go text .ampersand
  | .plain, .char c =>
    if c = '&' then go text .ampersand
    else if c = '%' then go text (.parameter (.ofChar c))
    else literal c (go (c :: text) .plain)
  | .ampersand, .char c =>
    if c = '#' then go text (.number {}) else literal c (go (c :: '&' :: text) .plain)
  | .number digits, t =>
    if t.isSemicolon then
      match numericChar? r.settings.revised digits.toList with
      | some d => go (d :: text) .plain
      | none => r.fail .badReference
    else
      match t with
      | .char c => literal c (go text (.number (digits.push c)))
      | _ => r.refuse t
  | .parameter parameter, t =>
    if t.isSemicolon then
      match r.settings.entity? parameter.toList with
      | some inner => go (inner.reverse ++ text) .plain
      | none => r.fail .unknownEntity
    else if t.isNameChar then go text (.parameter (t.text.foldl Word.push parameter))
    else r.refuse t
  | _, t => r.refuse t

/-- One token between the markup of a document type. -/
def outsideDeclarations (r : Reader) (t : Token) : Except Fault Reader :=
  match t with
  | .tagClose => r.goto .content
  | .declarationOpen => r.goto (.doctype (.keyword {}))
  | .commentOpen => r.goto (.doctype .comment)
  | .quote q => r.goto (.doctype (.quoted q))
  | .cdataOpen => r.refuse t
  | .cdataClose => r.refuse t
  | .char c => if c = '%' then r.goto (.doctype (.parameter (.ofChar c))) else .ok r
  | _ => .ok r

/-- The keyword of a declaration is complete. -/
def endKeyword (r : Reader) (word : String) : Except Fault Reader :=
  if word = "ENTITY" then r.goto (.doctype .beforeName)
  else if word = "NOTATION" ∨ word = "ELEMENT" ∨ word = "ATTLIST" then
    r.goto (.doctype .skipped)
  else r.fail .badName

/-- One more character of the name of an entity. -/
def growEntityName (r : Reader) (name : Word) (c : Char) : Except Fault Reader :=
  if maxNameWidth < name.width then r.fail .nameTooLong
  else r.goto (.doctype (.entityName (name.push c)))

/-- One token before the value of an entity.  An entity whose value stands outside of
the document is empty. -/
def beforeEntityValue (r : Reader) (name : Word) (t : Token) : Except Fault Reader :=
  match t with
  | .quote q => r.goto (.doctype (.value name q [] .plain))
  | .char c =>
    if isSpace c then .ok r
    else if c = 'S' ∨ c = 'P' then
      .ok { r with
        place := .doctype .skipped
        settings := r.settings.declare name.toList [] }
    else r.refuse t
  | _ => r.refuse t

/-- One token of a document type. -/
def inDoctype (r : Reader) (place : DoctypePlace) (t : Token) : Except Fault Reader :=
  match place with
  | .outside => r.outsideDeclarations t
  | .quoted q => if t = .quote q then r.goto (.doctype .outside) else .ok r
  | .comment => if t = .commentClose then r.goto (.doctype .outside) else .ok r
  | .keyword word =>
    match t with
    | .char c =>
      if c.isUpper then r.goto (.doctype (.keyword (word.push c)))
      else if isSpace c then r.endKeyword (String.ofList word.toList)
      else r.refuse t
    | _ => r.refuse t
  | .beforeName =>
    match t with
    | .char c =>
      if isSpace c then .ok r
      else if c = '%' then r.goto (.doctype .parameterMark)
      else if isNameStart c then r.goto (.doctype (.entityName (.ofChar c)))
      else r.refuse t
    | _ => r.refuse t
  | .parameterMark =>
    match t with
    | .char c =>
      if isSpace c then .ok r
      else if isNameStart c then r.growEntityName (.ofChar '%') c
      else r.refuse t
    | _ => r.refuse t
  | .entityName name =>
    match t with
    | .char c =>
      if isSpace c then r.goto (.doctype (.beforeValue name))
      else if isNameChar c then r.growEntityName name c
      else r.refuse t
    | _ => r.refuse t
  | .beforeValue name => r.beforeEntityValue name t
  | .value name quote text place => r.inEntityValue name quote text place t
  | .skipped =>
    match t with
    | .tagClose => r.goto (.doctype .outside)
    | .declarationOpen => r.refuse t
    | _ => .ok r
  | .parameter name =>
    if t.isSemicolon then
      match r.settings.entity? name.toList with
      | some text => r.expandInto (.doctype .outside) text
      | none => r.fail .unknownEntity
    else if t.isNameChar then r.goto (.doctype (.parameter (t.text.foldl Word.push name)))
    else r.refuse t

end Reader

end CallBridge.Markup

import CallBridge.Markup.Body
import CallBridge.Report
import CallBridge.Text.Bytes
import CallBridge.Text.Lines

/-!
# Reading a document

`Reader.accept` takes one token at whatever place the reader is.  `Reader.feed`
takes a run of characters and reads the text of an entity right where it is
referred to.  `Reader.take` takes one character of the document itself and keeps
track of the place.  `read` takes a whole document and gives its last root
element.

Expansion is bounded: between two characters of the document at most `maxDepth`
entities are expanded, and none while more than `maxPending` characters wait.

Reading is a fold over the characters, so that a document can be read in parts
(`takeAll_append`).
-/

namespace CallBridge.Markup

open Text

namespace Reader

/-- Takes one token. -/
def accept (r : Reader) (t : Token) : Except Fault Reader :=
  match r.place with
  | .content => r.inContent t
  | .comment => r.inComment t
  | .cdata => r.inCdata t
  | .target name => r.inTarget name t
  | .instruction => r.inInstruction t
  | .declaration place => r.inDeclaration place t
  | .doctype place => r.inDoctype place t
  | .startName name => r.inStartName name t
  | .startTag tag place => r.inStartTag tag place t
  | .endName name => r.inEndName name t
  | .endTag name => r.inEndTag name t
  | .reference name => r.inReference name t

/-- Takes tokens.  The token after each of them begins at the place reached. -/
def acceptAll (r : Reader) : List Token → Except Fault Reader
  | [] => .ok r
  | t :: ts => do
    let r ← r.accept t
    { r with mark := r.position }.acceptAll ts

/-- Takes one character, and the tokens that it completes. -/
def step (r : Reader) (c : Char) : Except Fault Reader :=
  match r.scanner.step c with
  | .ok (scanner, tokens) => { r with scanner := scanner }.acceptAll tokens
  | .error reason => r.fail reason

/-- How many entities may be expanded between two characters of a document. -/
def maxDepth : Nat :=
  10

/-- How many characters may wait while an entity is expanded. -/
def maxPending : Nat :=
  1000000

/-- The reader about to read the text of an entity, while `waiting` characters wait
behind it. -/
def enterEntity (r : Reader) (waiting : Nat) : Except Fault Reader :=
  if r.expansions < maxDepth ∧ waiting ≤ maxPending then
    .ok { r with pending := [], expansions := r.expansions + 1 }
  else r.fail .entityTooDeep

/-- Takes characters one after the other.  Where one of them completes a reference
to an entity, `expand` reads the text of the entity. -/
def feedWith (expand : Nat → Reader → List Char → Except Fault Reader) (waiting : Nat) :
    Reader → List Char → Except Fault Reader
  | r, [] => .ok r
  | r, c :: cs => do
    let r ← r.step c
    let r ←
      if r.pending.isEmpty then .ok r
      else do
        let text := r.pending
        let r ← r.enterEntity (waiting + cs.length)
        expand (waiting + cs.length) r text
    feedWith expand waiting r cs

/-- Takes characters, with expansions nested at most as deep as given.  `waiting`
characters wait behind these. -/
def feed : Nat → Nat → Reader → List Char → Except Fault Reader
  | 0 => fun _ r _ => r.fail .entityTooDeep
  | depth + 1 => feedWith (feed depth)

/-- The characters that a character of the document stands for in an encoding.  In
`latin` every byte is a character of its own. -/
def Encoding.charsOf? (encoding : Encoding) (c : Char) : Option (List Char) :=
  match encoding with
  | .utf8 => some [c]
  | .latin => some (byteChars c)
  | .ascii => if c.toNat < 0x80 then some [c] else none

/-- Takes one character as the encoding has it. -/
def takeDecoded (r : Reader) (c : Char) : Except Fault Reader :=
  feed maxDepth 0 { r with position := r.position.after c, expansions := 0 } [c]

/-- Takes one character of the document.  One that the encoding does not have is a
fault without a place, which counts as one at the start. -/
def take (r : Reader) (c : Char) : Except Fault Reader :=
  match Encoding.charsOf? r.encoding c with
  | some cs => cs.foldlM takeDecoded r
  | none => .error ⟨{}, .notAscii⟩

/-- Takes characters of the document. -/
def takeAll (r : Reader) (cs : List Char) : Except Fault Reader :=
  cs.foldlM take r

/-- The root element of a document that ends here. -/
def finish (r : Reader) : Except Fault Element :=
  match r.place, r.frames, r.root with
  | .content, [], some root =>
    if r.scanner.isAtRest then .ok root else .error ⟨r.position, .endedEarly⟩
  | _, _, _ => .error ⟨r.position, .endedEarly⟩

/-- Reading one part and then the next is reading both. -/
theorem takeAll_append (r : Reader) (xs ys : List Char) :
    r.takeAll (xs ++ ys) = (r.takeAll xs >>= fun r => r.takeAll ys) := by
  simp [takeAll, List.foldlM_append]

end Reader

/-- The reader before a document, which may begin with a byte order mark, and the
characters to be read. -/
def opening : List Char → Reader × List Char
  | '\ufeff' :: cs => ({ marked := true }, cs)
  | cs => ({}, cs)

/-- The last root element of a document. -/
def read (cs : List Char) : Except Fault Element := do
  let (r, cs) := opening cs
  let r ← r.takeAll cs
  r.finish

/-- The report of a fault in a document, with the text of its line. -/
def Fault.report (text : String) (fault : Fault) : Report where
  code := "XML001"
  message := fault.reason.message
  line := some fault.line
  column := some fault.column
  snippet := some (String.ofList ((lines text.toList).getD (fault.line - 1) []))

/-- The root element of a document text. -/
def parse (text : String) : Except Report Element :=
  match read text.toList with
  | .ok root => .ok root
  | .error fault => .error (fault.report text)

end CallBridge.Markup

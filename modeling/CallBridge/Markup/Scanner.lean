import CallBridge.Markup.Chars
import CallBridge.Markup.Fault

/-!
# Cutting a document into tokens

A scanner takes one character at a time and hands out the tokens that are complete.
Between two tokens it stands on a `Ground`, which says what counts as a delimiter: in
a comment, for instance, nothing does but the end of the comment.  A delimiter of
several characters is held back as `begun` until it is clear whether it is one.

The scanner looks at characters only.  A delimiter takes it to another ground even
where the reader behind it takes the same delimiter for text, as in the value of an
attribute.

* `Scanner.step_text`: the tokens handed out and what is held back spell what has
  been read, so no character is lost or made up.
-/

namespace CallBridge.Markup

/-- Where a scanner stands between two tokens. -/
inductive Ground where
  | content
  | instruction
  | comment
  | cdata
  | doctype
  /-- In a declaration inside a document type. -/
  | declaration
  /-- Between quotes in such a declaration. -/
  | literal (q : Quote)
  deriving DecidableEq, Repr

/-- A scanner between two characters. -/
structure Scanner where
  ground : Ground := .content
  /-- The ground behind a piece of markup: content, or a document type that is open. -/
  home : Ground := .content
  /-- The characters of a delimiter that is not complete. -/
  begun : List Char := []
  deriving DecidableEq, Repr

namespace Scanner

/-- What a character brings about: another scanner and the tokens that are complete. -/
abbrev Scanned := Except Reason (Scanner × List Token)

/-- The scanner between two tokens on a ground. -/
def on (s : Scanner) (ground : Ground) : Scanner :=
  { s with ground := ground, begun := [] }

/-- Hands out one token and goes to a ground. -/
def give (s : Scanner) (ground : Ground) (token : Token) : Scanned :=
  .ok (s.on ground, [token])

/-- Holds back the characters of a delimiter. -/
def hold (s : Scanner) (begun : List Char) : Scanned :=
  .ok ({ s with begun := begun }, [])

/-- The delimiter of one character that counts in content and in an instruction. -/
def plainToken (c : Char) : Token :=
  match Quote.ofChar? c with
  | some q => .quote q
  | none =>
    if c = '>' then .tagClose
    else if c = '=' then .equals
    else if c = '&' then .ampersand
    else if c = ';' then .semicolon
    else .char c

/-- The delimiter of one character that counts in a document type. -/
def innerToken (c : Char) : Token :=
  if c = '=' then .char c else plainToken c

/-- A character before which nothing is held back. -/
def start (s : Scanner) (c : Char) : Scanned :=
  match s.ground with
  | .content =>
    if c = '<' ∨ c = '/' ∨ c = ']' then s.hold [c] else s.give .content (plainToken c)
  | .instruction =>
    if c = '?' then s.hold [c]
    else s.give .instruction (if c = '<' then .tagOpen else plainToken c)
  | .comment => if c = '-' then s.hold [c] else s.give .comment (.char c)
  | .cdata => if c = ']' then s.hold [c] else s.give .cdata (.char c)
  | .doctype =>
    if c = '<' then s.hold [c]
    else if c = '>' then { s with home := .content }.give .content .tagClose
    else s.give .doctype (innerToken c)
  | .declaration =>
    if c = '<' then .error (.broken [] c)
    else
      match innerToken c with
      | .tagClose => s.give s.home .tagClose
      | .quote q => s.give (.literal q) (.quote q)
      | token => s.give .declaration token
  | .literal q =>
    if c = q.char then s.give .declaration (.quote q) else s.give (.literal q) (.char c)

/-- What was held back is no delimiter: hands it out as it is, and begins anew with a
character. -/
def release (s : Scanner) (ground : Ground) (tokens : List Token) (c : Char) : Scanned :=
  match (s.on ground).start c with
  | .ok (s, more) => .ok (s, tokens ++ more)
  | .error reason => .error reason

/-- A character after an opening angle. -/
def afterAngle (s : Scanner) (c : Char) : Scanned :=
  if c = '?' then s.give .instruction .instructionOpen
  else if c = '/' then s.give s.home .endTagOpen
  else if c = '!' then s.hold ['<', '!']
  else if isSpace c ∨ isNameChar c then s.release s.home [.tagOpen] c
  else .error (.broken s.begun c)

/-- A character after an opening angle and an exclamation mark.  Declarations stand
inside a document type only. -/
def afterBang (s : Scanner) (c : Char) : Scanned :=
  if c = '-' ∨ c = '[' ∨ c = 'D' then s.hold ['<', '!', c]
  else if s.home = .doctype ∧ (c = 'E' ∨ c = 'A' ∨ c = 'N') then
    s.release .declaration [.declarationOpen] c
  else .error (.broken s.begun c)

/-- A character of a delimiter that is spelt out. -/
def spell (s : Scanner) (c : Char) : Scanned :=
  let begun := s.begun ++ [c]
  if begun = Token.commentOpen.text then s.give .comment .commentOpen
  else if begun = Token.cdataOpen.text then s.give .cdata .cdataOpen
  else if begun = Token.doctypeOpen.text then
    { s with home := .doctype }.give .doctype .doctypeOpen
  else if [Token.cdataOpen.text, Token.doctypeOpen.text].any begun.isPrefixOf then s.hold begun
  else .error (.broken s.begun c)

/-- A character after one bracket. -/
def afterBracket (s : Scanner) (c : Char) : Scanned :=
  if c = ']' then s.hold [']', ']']
  else s.release (if s.ground = .cdata then .cdata else .content) [.char ']'] c

/-- A character after two brackets. -/
def afterBrackets (s : Scanner) (c : Char) : Scanned :=
  if c = '>' then s.give (if s.ground = .cdata then .content else s.home) .cdataClose
  else if c = ']' then .ok (s, [.char ']'])
  else s.release (if s.ground = .cdata then .cdata else .content) [.char ']', .char ']'] c

/-- Takes one character. -/
def step (s : Scanner) (c : Char) : Scanned :=
  match s.begun with
  | [] => s.start c
  | ['<'] => s.afterAngle c
  | ['<', '!'] => s.afterBang c
  | ['/'] =>
    if c = '>' then s.give s.home .emptyTagClose else s.release s.home [.char '/'] c
  | ['?'] =>
    if c = '>' then s.give s.home .instructionClose
    else s.release .instruction [.char '?'] c
  | ['-'] => if c = '-' then s.hold ['-', '-'] else s.release .comment [.char '-'] c
  | ['-', '-'] =>
    if c = '>' then s.give s.home .commentClose else .error (.broken s.begun c)
  | [']'] => s.afterBracket c
  | [']', ']'] => s.afterBrackets c
  | _ => s.spell c

/-- A document may end here: nothing is held back, and no comment, character data or
document type is open. -/
def isAtRest (s : Scanner) : Bool :=
  s.begun.isEmpty && (s.ground == .content || s.ground == .instruction)

/-! ## No character is lost -/

@[simp] theorem text_plainToken (c : Char) : (plainToken c).text = [c] := by
  unfold plainToken
  split
  · rename_i q hq
    simp [Quote.char_of_ofChar? hq]
  · repeat' split
    all_goals
      subst_vars
      rfl

@[simp] theorem text_innerToken (c : Char) : (innerToken c).text = [c] := by
  unfold innerToken
  split <;> simp

theorem start_text {s s' : Scanner} {c : Char} {tokens : List Token}
    (h : s.start c = .ok (s', tokens)) (_ : s.begun = []) :
    tokens.flatMap Token.text ++ s'.begun = [c] := by
  have inner := text_innerToken c
  unfold start at h
  repeat' split at h
  all_goals
    simp only [give, hold, on, Except.ok.injEq, Prod.mk.injEq, reduceCtorEq] at h
  all_goals
    obtain ⟨rfl, rfl⟩ := h
    simp_all
  exact inner

theorem release_text {s s' : Scanner} {ground : Ground} {tokens given : List Token} {c : Char}
    (h : s.release ground given c = .ok (s', tokens)) :
    tokens.flatMap Token.text ++ s'.begun = given.flatMap Token.text ++ [c] := by
  unfold release at h
  split at h
  · rename_i more hs
    obtain ⟨rfl, rfl⟩ := Prod.mk.inj (Except.ok.inj h)
    simp [start_text hs rfl]
  · simp at h

theorem give_text {s s' : Scanner} {ground : Ground} {token : Token} {tokens : List Token}
    (h : s.give ground token = .ok (s', tokens)) :
    tokens.flatMap Token.text ++ s'.begun = token.text := by
  obtain ⟨rfl, rfl⟩ := Prod.mk.inj (Except.ok.inj h)
  simp [on]

theorem hold_text {s s' : Scanner} {begun : List Char} {tokens : List Token}
    (h : s.hold begun = .ok (s', tokens)) :
    tokens.flatMap Token.text ++ s'.begun = begun := by
  obtain ⟨rfl, rfl⟩ := Prod.mk.inj (Except.ok.inj h)
  simp

theorem afterAngle_text {s s' : Scanner} {c : Char} {tokens : List Token}
    (h : s.afterAngle c = .ok (s', tokens)) :
    tokens.flatMap Token.text ++ s'.begun = ['<', c] := by
  unfold afterAngle at h
  repeat' split at h
  · simp [give_text h, Token.text, *]
  · simp [give_text h, Token.text, *]
  · simp [hold_text h, *]
  · simp [release_text h]
  · simp at h

theorem afterBang_text {s s' : Scanner} {c : Char} {tokens : List Token}
    (h : s.afterBang c = .ok (s', tokens)) :
    tokens.flatMap Token.text ++ s'.begun = ['<', '!', c] := by
  unfold afterBang at h
  repeat' split at h
  · simp [hold_text h]
  · simp [release_text h, Token.text]
  · simp at h

theorem spell_text {s s' : Scanner} {c : Char} {tokens : List Token}
    (h : s.spell c = .ok (s', tokens)) :
    tokens.flatMap Token.text ++ s'.begun = s.begun ++ [c] := by
  unfold spell at h
  dsimp only at h
  repeat' split at h
  · rename_i full
    rw [give_text h, full]
  · rename_i full
    rw [give_text h, full]
  · rename_i full
    rw [give_text h, full]
  · rw [hold_text h]
  · simp at h

theorem afterBracket_text {s s' : Scanner} {c : Char} {tokens : List Token}
    (h : s.afterBracket c = .ok (s', tokens)) :
    tokens.flatMap Token.text ++ s'.begun = [']', c] := by
  unfold afterBracket at h
  split at h
  · simp [hold_text h, *]
  · simp [release_text h]

theorem afterBrackets_text {s s' : Scanner} {c : Char} {tokens : List Token}
    (h : s.afterBrackets c = .ok (s', tokens)) (held : s.begun = [']', ']']) :
    tokens.flatMap Token.text ++ s'.begun = [']', ']', c] := by
  unfold afterBrackets at h
  split at h
  · simp [give_text h, Token.text, *]
  · split at h
    · obtain ⟨rfl, rfl⟩ := Prod.mk.inj (Except.ok.inj h)
      simp [*]
    · simp [release_text h]

/-- The tokens handed out and what is held back afterwards spell what was held back
before and the character read. -/
theorem step_text {s s' : Scanner} {c : Char} {tokens : List Token}
    (h : s.step c = .ok (s', tokens)) :
    tokens.flatMap Token.text ++ s'.begun = s.begun ++ [c] := by
  unfold step at h
  split at h
  · simp [start_text h, *]
  · simp [afterAngle_text h, *]
  · simp [afterBang_text h, *]
  · split at h
    · simp [give_text h, Token.text, *]
    · simp [release_text h, *]
  · split at h
    · simp [give_text h, Token.text, *]
    · simp [release_text h, *]
  · split at h
    · simp [hold_text h, *]
    · simp [release_text h, *]
  · split at h
    · simp [give_text h, Token.text, *]
    · simp at h
  · simp [afterBracket_text h, *]
  · simp [afterBrackets_text h ‹_›, *]
  · exact spell_text h

end Scanner

end CallBridge.Markup

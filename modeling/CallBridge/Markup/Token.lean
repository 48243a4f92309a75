/-!
# Tokens

A document is a run of tokens: the delimiters of markup, and single characters.
-/

namespace CallBridge.Markup

/-- The two quotes. -/
inductive Quote where
  | single
  | double
  deriving DecidableEq, Repr

/-- A quote as it is written. -/
def Quote.char : Quote → Char
  | single => '\''
  | double => '"'

/-- The quote that a character is, if it is one. -/
def Quote.ofChar? (c : Char) : Option Quote :=
  if c = '\'' then some .single else if c = '"' then some .double else none

theorem Quote.char_of_ofChar? {c : Char} {q : Quote} (h : ofChar? c = some q) : q.char = c := by
  unfold ofChar? at h
  repeat' split at h
  all_goals
    cases h
    try simp [Quote.char, *]

/-- A delimiter, or a character that is none. -/
inductive Token where
  | char (c : Char)
  | tagOpen
  | endTagOpen
  | tagClose
  | emptyTagClose
  | instructionOpen
  | instructionClose
  | commentOpen
  | commentClose
  | cdataOpen
  | cdataClose
  | doctypeOpen
  /-- Before the keyword of a declaration inside a document type. -/
  | declarationOpen
  | equals
  | quote (q : Quote)
  | ampersand
  | semicolon
  deriving DecidableEq, Repr

/-- A token as it is written. -/
def Token.text : Token → List Char
  | char c => [c]
  | tagOpen => ['<']
  | endTagOpen => ['<', '/']
  | tagClose => ['>']
  | emptyTagClose => ['/', '>']
  | instructionOpen => ['<', '?']
  | instructionClose => ['?', '>']
  | commentOpen => ['<', '!', '-', '-']
  | commentClose => ['-', '-', '>']
  | cdataOpen => ['<', '!', '[', 'C', 'D', 'A', 'T', 'A', '[']
  | cdataClose => [']', ']', '>']
  | doctypeOpen => ['<', '!', 'D', 'O', 'C', 'T', 'Y', 'P', 'E']
  | declarationOpen => ['<', '!']
  | equals => ['=']
  | quote q => [q.char]
  | ampersand => ['&']
  | semicolon => [';']

@[simp] theorem Token.text_char (c : Char) : (char c).text = [c] := rfl

@[simp] theorem Token.text_tagOpen : tagOpen.text = ['<'] := rfl

@[simp] theorem Token.text_tagClose : tagClose.text = ['>'] := rfl

@[simp] theorem Token.text_quote (q : Quote) : (quote q).text = [q.char] := rfl

end CallBridge.Markup

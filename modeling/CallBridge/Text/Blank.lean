import CallBridge.Text.Ranges

/-!
# Blank characters, trimming and words

Blank means Unicode white space: the ASCII tab, line ends and space, U+0085,
U+00A0 and the wide, thin and separating spaces further up.  Text is cut into
pieces at characters of a class (`pieces`), and the words of a text are its
pieces between blanks that are not empty.  `joinWith_pieces` says that cutting
at one character loses nothing but that character.
-/

namespace CallBridge.Text

/-- The white space of Unicode, as ranges of code points. -/
def blankRanges : List (Nat × Nat) := [
  (0x9, 0xd), (0x20, 0x20), (0x85, 0x85), (0xa0, 0xa0), (0x1680, 0x1680),
  (0x2000, 0x200a), (0x2028, 0x2029), (0x202f, 0x202f), (0x205f, 0x205f), (0x3000, 0x3000)]

/-- Whether a character is white space. -/
def isBlank (c : Char) : Bool :=
  inRanges blankRanges c.toNat

/-- Drops the blanks at the front. -/
def trimStart (cs : List Char) : List Char :=
  cs.dropWhile isBlank

/-- Drops the blanks at the end. -/
def trimEnd (cs : List Char) : List Char :=
  (cs.reverse.dropWhile isBlank).reverse

/-- Drops the blanks at both ends. -/
def trim (cs : List Char) : List Char :=
  trimEnd (trimStart cs)

/-- The text without blanks at its ends. -/
def trimmed (s : String) : String :=
  String.ofList (trim s.toList)

/-- Puts a character before the first piece. -/
def consFirst (c : Char) : List (List Char) → List (List Char)
  | [] => [[c]]
  | piece :: rest => (c :: piece) :: rest

/-- The pieces of a text between the characters of a class.  There is always one
piece more than there are separators. -/
def pieces (separates : Char → Bool) : List Char → List (List Char)
  | [] => [[]]
  | c :: cs =>
    if separates c then [] :: pieces separates cs else consFirst c (pieces separates cs)

/-- The words of a text: its non-empty pieces between blanks. -/
def words (cs : List Char) : List (List Char) :=
  (pieces isBlank cs).filter fun piece => !piece.isEmpty

/-- Joins texts with a separator between neighbours. -/
def joinWith (separator : List Char) : List (List Char) → List Char
  | [] => []
  | [piece] => piece
  | piece :: rest => piece ++ separator ++ joinWith separator rest

theorem isBlank_space : isBlank ' ' = true := by decide

/-- A text is a blank run, its trimmed start and nothing else. -/
theorem takeWhile_append_trimStart (cs : List Char) :
    cs.takeWhile isBlank ++ trimStart cs = cs :=
  List.takeWhile_append_dropWhile

theorem pieces_ne_nil (separates : Char → Bool) (cs : List Char) : pieces separates cs ≠ [] := by
  cases cs with
  | nil => simp [pieces]
  | cons c cs =>
    unfold pieces
    split
    · simp
    · unfold consFirst
      split <;> simp

theorem joinWith_consFirst (separator : List Char) (c : Char) (rest : List (List Char)) :
    joinWith separator (consFirst c rest) = c :: joinWith separator rest := by
  cases rest with
  | nil => rfl
  | cons piece rest => cases rest <;> rfl

/-- Cutting at one character and joining with it again gives the text back. -/
theorem joinWith_pieces (mark : Char) (cs : List Char) :
    joinWith [mark] (pieces (· == mark) cs) = cs := by
  induction cs with
  | nil => rfl
  | cons c cs ih =>
    by_cases h : c = mark
    · subst h
      obtain ⟨piece, rest, hp⟩ := List.exists_cons_of_ne_nil (pieces_ne_nil (· == c) cs)
      rw [hp] at ih
      simp [pieces, hp, joinWith, ih]
    · simp [pieces, h, joinWith_consFirst, ih]

end CallBridge.Text

/-!
# Places measured in bytes

Columns and offsets count the bytes of a text in UTF-8: one to four for a
character.  `width` measures a run of characters, and `offsetOf?` finds where a
run occurs for the first time.
-/

namespace CallBridge.Text

/-- How many bytes a run of characters takes. -/
def width : List Char → Nat
  | [] => 0
  | c :: cs => c.utf8Size + width cs

/-- Whether a text begins with a run of characters. -/
def startsWith : List Char → List Char → Bool
  | [], _ => true
  | _ :: _, [] => false
  | p :: ps, c :: cs => p == c && startsWith ps cs

/-- The byte at which a run occurs for the first time in a text. -/
def offsetOf? (run : List Char) : List Char → Option Nat
  | [] => if run.isEmpty then some 0 else none
  | c :: cs =>
    if startsWith run (c :: cs) then some 0
    else (offsetOf? run cs).map (c.utf8Size + ·)

/-- Reads each byte of a character as a character of its own. -/
def byteChars (c : Char) : List Char :=
  (String.utf8EncodeChar c).map fun byte => Char.ofNat byte.toNat

theorem width_append (xs ys : List Char) : width (xs ++ ys) = width xs + width ys := by
  induction xs with
  | nil => simp [width]
  | cons c cs ih => simp [width, ih, Nat.add_assoc]

theorem startsWith_iff {run cs : List Char} :
    startsWith run cs = true ↔ ∃ rest, cs = run ++ rest := by
  induction run generalizing cs with
  | nil => simp [startsWith]
  | cons p ps ih =>
    cases cs with
    | nil => simp [startsWith]
    | cons c cs =>
      simp only [startsWith, Bool.and_eq_true, beq_iff_eq, ih, List.cons_append, List.cons.injEq]
      constructor
      · rintro ⟨rfl, rest, rfl⟩
        exact ⟨rest, rfl, rfl⟩
      · rintro ⟨rest, rfl, rfl⟩
        exact ⟨rfl, rest, rfl⟩

end CallBridge.Text

import CallBridge.Proofs.Markup.References

/-!
# Runs of text

Text stands between tags and in the values of attributes, and in both places the scanner may
hold back its end.  A `TextPlace` is a place where a reader takes text: tokens of text lead from
one text to a longer one.  `Behind` describes the readers behind a text, whatever part of it is
held back.

* `TextPlace.reads_raw`: a character that is no markup makes the text longer;
* `TextPlace.reads_flush`: a character that ends the run hands out what is held back first.
-/

namespace CallBridge.Markup

/-! ## Scanning text -/

/-- Characters spell themselves. -/
theorem text_map_char (cs : List Char) : (cs.map Token.char).flatMap Token.text = cs := by
  induction cs with
  | nil => rfl
  | cons c cs ih =>
    rw [List.map_cons, List.flatMap_cons, ih, Token.text_char, List.singleton_append]

/-- A character of text hands out tokens of text, and may be held back itself. -/
theorem Scanner.exists_step_text {held : List Char} {c : Char} (hheld : held ∈ heldRuns)
    (hopen : c ≠ '<') :
    ∃ tokens held', (inside held).step c = .ok (inside held', tokens) ∧ held' ∈ heldRuns ∧
      tokens.flatMap Token.text ++ held' = held ++ [c] ∧
      held'.count ']' ≤ (if c = ']' then held.count ']' + 1 else 0) ∧
      ∀ t ∈ tokens, t ∈ [.char '/', .char ']', .emptyTagClose, plainToken c] ∨
        t = .cdataClose ∧ c = '>' ∧ held.count ']' = 2 := by
  have hdelimiter : c = '>' ∨ c = ']' ∨ c = '/' ∨ c ∉ ['<', '/', ']', '>'] := by
    by_cases hangle : c = '>' <;> by_cases hbracket : c = ']' <;> by_cases hslash : c = '/' <;>
      simp [hangle, hbracket, hslash, hopen]
  have hchars : ∀ t ∈ held.map Token.char, t = .char '/' ∨ t = .char ']' := by
    simp only [heldRuns, List.mem_cons, List.not_mem_nil, or_false] at hheld
    rcases hheld with rfl | rfl | rfl | rfl <;> simp
  rcases hdelimiter with rfl | rfl | rfl | hplain
  · simp only [heldRuns, List.mem_cons, List.not_mem_nil, or_false] at hheld
    rcases hheld with rfl | rfl | rfl | rfl
    · exact ⟨[.tagClose], [], rfl, by decide, rfl, by decide, by decide⟩
    · exact ⟨[.emptyTagClose], [], rfl, by decide, rfl, by decide, by decide⟩
    · exact ⟨[.char ']', .tagClose], [], rfl, by decide, rfl, by decide, by decide⟩
    · exact ⟨[.cdataClose], [], rfl, by decide, rfl, by decide, by decide⟩
  · simp only [heldRuns, List.mem_cons, List.not_mem_nil, or_false] at hheld
    rcases hheld with rfl | rfl | rfl | rfl
    · exact ⟨[], [']'], rfl, by decide, rfl, by decide, by decide⟩
    · exact ⟨[.char '/'], [']'], rfl, by decide, rfl, by decide, by decide⟩
    · exact ⟨[], [']', ']'], rfl, by decide, rfl, by decide, by decide⟩
    · exact ⟨[.char ']'], [']', ']'], rfl, by decide, rfl, by decide, by decide⟩
  · refine ⟨held.map .char, ['/'], step_slash hheld, by decide, by rw [text_map_char], by simp, ?_⟩
    intro t ht
    rcases hchars t ht with rfl | rfl <;> simp
  · refine ⟨held.map .char ++ [plainToken c], [], step_plain hheld hplain, by decide, ?_, by simp,
      ?_⟩
    · simp [text_map_char]
    · intro t ht
      rcases List.mem_append.mp ht with hmem | hmem
      · rcases hchars t hmem with rfl | rfl <;> simp
      · simp [List.mem_singleton.mp hmem]

/-! ## Places for text -/

/-- A place where tokens of text make the text longer.  `base` and `place` give the view behind
a text. -/
structure TextPlace (base : List Char → View) (place : List Char → Place)
    (allowed : Token → Prop) : Prop where
  takes : ∀ t, allowed t → ∀ front s, Accepts ((base front).on s (place front)) [t]
    ((base (front ++ t.text)).on s (place (front ++ t.text)))
  slash : allowed (.char '/')
  bracket : allowed (.char ']')
  emptyTagClose : allowed .emptyTagClose

/-- The readers behind a text.  Its end may be held back by the scanner, and no more of it than
the closing brackets that stand there. -/
def Behind (base : List Char → View) (place : List Char → Place) (text : List Char)
    (brackets : Nat) (r : Reader) : Prop :=
  ∃ front held, front ++ held = text ∧ held ∈ heldRuns ∧ held.count ']' ≤ brackets ∧
    Shows ((base front).on (.inside held) (place front)) r

theorem behind_of_shows {base : List Char → View} {place : List Char → Place} {text : List Char}
    {r : Reader} (h : Shows ((base text).on (.inside []) (place text)) r) (brackets : Nat) :
    Behind base place text brackets r :=
  ⟨text, [], List.append_nil text, List.mem_cons_self, Nat.zero_le _, h⟩

namespace TextPlace

variable {base : List Char → View} {place : List Char → Place} {allowed : Token → Prop}
  {text : List Char} {brackets : Nat} {c : Char}

theorem takes_all (h : TextPlace base place allowed) {ts : List Token} (hts : ∀ t ∈ ts, allowed t)
    (front : List Char) (s : Scanner) :
    Accepts ((base front).on s (place front)) ts
      ((base (front ++ ts.flatMap Token.text)).on s (place (front ++ ts.flatMap Token.text))) := by
  induction ts generalizing front with
  | nil =>
    rw [List.flatMap_nil, List.append_nil]
    exact .nil _
  | cons t ts ih =>
    obtain ⟨ht, hrest⟩ := List.forall_mem_cons.mp hts
    rw [List.flatMap_cons, ← List.append_assoc]
    exact (h.takes t ht front s).cons (ih hrest _)

theorem allowed_held (h : TextPlace base place allowed) {held : List Char}
    (hheld : held ∈ heldRuns) : ∀ t ∈ held.map Token.char, allowed t := by
  simp only [heldRuns, List.mem_cons, List.not_mem_nil, or_false] at hheld
  rcases hheld with rfl | rfl | rfl | rfl <;> simp [h.slash, h.bracket]

/-- A character that is no markup makes the text longer. -/
theorem reads_raw (h : TextPlace base place allowed) (hholds : ∀ text, (base text).Holds c)
    (hopen : c ≠ '<') (hplain : allowed (Scanner.plainToken c))
    (hclose : c = '>' → brackets < 2 ∨ allowed .cdataClose) :
    Reads (Behind base place text brackets) [c]
      (Behind base place (text ++ [c]) (if c = ']' then brackets + 1 else 0)) := by
  rintro r ⟨front, held, rfl, hheld, hcount, hr⟩
  obtain ⟨tokens, held', hscan, hheld', htext, hcount', htokens⟩ :=
    Scanner.exists_step_text hheld hopen
  have hallowed : ∀ t ∈ tokens, allowed t := by
    intro t ht
    rcases htokens t ht with hmem | ⟨rfl, hc, htwo⟩
    · simp only [List.mem_cons, List.not_mem_nil, or_false] at hmem
      rcases hmem with rfl | rfl | rfl | rfl
      · exact h.slash
      · exact h.bracket
      · exact h.emptyTagClose
      · exact hplain
    · exact (hclose hc).resolve_left (by omega)
  obtain ⟨r', htake, hr'⟩ := reads_char (hholds front) hscan (h.takes_all hallowed front _) r hr
  refine ⟨r', htake, _, held', ?_, hheld', ?_, hr'⟩
  · rw [List.append_assoc, htext, List.append_assoc]
  · refine Nat.le_trans hcount' ?_
    split <;> omega

/-- A character that ends the run hands out what is held back first. -/
theorem reads_flush (h : TextPlace base place allowed) (hholds : ∀ text, (base text).Holds c)
    {scanner : Scanner} {ts : List Token} {v : View}
    (hscan : ∀ held ∈ heldRuns,
      (Scanner.inside held).step c = .ok (scanner, held.map .char ++ ts))
    (haccept : Accepts ((base text).on scanner (place text)) ts v) :
    Reads (Behind base place text brackets) [c] (Shows v) := by
  rintro r ⟨front, held, rfl, hheld, -, hr⟩
  have hheldText := h.takes_all (h.allowed_held hheld) front scanner
  rw [text_map_char] at hheldText
  exact reads_char (hholds front) (hscan held hheld) (hheldText.append haccept) r hr

end TextPlace

end CallBridge.Markup

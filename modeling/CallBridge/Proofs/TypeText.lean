import CallBridge.Proofs.Text.Blank
import CallBridge.Signature

/-!
# Type texts in normal form

What is known of a type text that normalizing leaves as it is (`IsTypeText`): no blank stands
at its ends, and every blank in it is a space.  A normal form is empty only if there was nothing but
blanks (`normalizeTypeChars_eq_nil_iff`), and a blank between two parts of a text keeps their normal
forms apart (`normalizeTypeChars_append_blank`).
-/

namespace CallBridge

open Text

variable {cs ds t : List Char} {b c : Char} {previous : Option Char}

/-! ## Stars set apart -/

theorem mem_of_mem_spaceStars (hc : c ∈ spaceStars previous cs) : c ∈ cs ∨ c = ' ' := by
  induction cs generalizing previous with
  | nil => exact absurd hc (by simp [spaceStars])
  | cons d cs ih =>
    cases previous with
    | none =>
      rcases List.mem_cons.mp hc with rfl | hrest
      · exact .inl List.mem_cons_self
      · exact (ih hrest).imp_left (List.mem_cons_of_mem d)
    | some p =>
      rw [spaceStars] at hc
      split at hc
      · rename_i hstar
        rcases List.mem_cons.mp hc with rfl | hstarred
        · exact .inr rfl
        · rcases List.mem_cons.mp hstarred with rfl | hrest
          · exact .inl (hstar.1 ▸ List.mem_cons_self)
          · exact (ih hrest).imp_left (List.mem_cons_of_mem d)
      · rcases List.mem_cons.mp hc with rfl | hrest
        · exact .inl List.mem_cons_self
        · exact (ih hrest).imp_left (List.mem_cons_of_mem d)

theorem head?_spaceStars_none (cs : List Char) : (spaceStars none cs).head? = cs.head? := by
  cases cs <;> rfl

theorem getLast?_spaceStars (previous : Option Char) (cs : List Char) :
    (spaceStars previous cs).getLast? = cs.getLast? := by
  induction cs generalizing previous with
  | nil => cases previous <;> rfl
  | cons d cs ih =>
    cases previous with
    | none => rw [spaceStars, List.getLast?_cons, ih, List.getLast?_cons]
    | some p =>
      rw [spaceStars]
      split
      · rename_i hstar
        rw [List.getLast?_cons_cons, List.getLast?_cons, ih, List.getLast?_cons, hstar.1]
      · rw [List.getLast?_cons, ih, List.getLast?_cons]

theorem spaceStars_eq_nil_iff : spaceStars previous cs = [] ↔ cs = [] := by
  rw [← List.getLast?_eq_none_iff, getLast?_spaceStars, List.getLast?_eq_none_iff]

/-- Of what stands before a text, only the last character counts. -/
theorem spaceStars_append (previous : Option Char) (cs ds : List Char) :
    spaceStars previous (cs ++ ds) =
      spaceStars previous cs ++ spaceStars (cs.getLast?.or previous) ds := by
  induction cs generalizing previous with
  | nil => simp [spaceStars]
  | cons c cs ih =>
    have hlast : cs.getLast?.or (some c) = (c :: cs).getLast?.or previous := by
      rw [List.getLast?_cons]
      cases cs.getLast? <;> rfl
    cases previous with
    | none => rw [List.cons_append, spaceStars, ih, spaceStars, List.cons_append, hlast]
    | some p =>
      rw [List.cons_append, spaceStars, spaceStars]
      split
      · rename_i hstar
        rw [ih, ← hstar.1, hlast, List.cons_append, List.cons_append]
      · rw [ih, hlast, List.cons_append]

/-- Behind a space, stars are set apart as at the start of a text. -/
theorem spaceStars_space (cs : List Char) : spaceStars (some ' ') cs = spaceStars none cs := by
  cases cs with
  | nil => rfl
  | cons c cs => simp [spaceStars]

theorem spaceStars_cons_space (previous : Option Char) (cs : List Char) :
    spaceStars previous (' ' :: cs) = ' ' :: spaceStars none cs := by
  cases previous <;> simp [spaceStars, spaceStars_space]

/-! ## Normal form -/

/-- A type text in normal form that is not empty. -/
structure IsTypeText (t : List Char) : Prop where
  ne_nil : t ≠ []
  normal : normalizeTypeChars t = t

theorem eq_space_of_mem_normalizeTypeChars (hc : c ∈ normalizeTypeChars cs)
    (hblank : isBlank c = true) : c = ' ' := by
  rcases mem_of_mem_spaceStars hc with hjoined | hspace
  · rcases mem_joinWith hjoined with hsep | ⟨word, hword, hcw⟩
    · exact List.mem_singleton.mp hsep
    · rw [not_isBlank_of_mem_words hword c hcw] at hblank
      contradiction
  · exact hspace

theorem isTrimmed_normalizeTypeChars (cs : List Char) : IsTrimmed (normalizeTypeChars cs) where
  head := by
    intro c hc
    rw [normalizeTypeChars, head?_spaceStars_none] at hc
    obtain ⟨word, hword, hcw⟩ := mem_head?_joinWith (fun _ => ne_nil_of_mem_words) hc
    exact not_isBlank_of_mem_words hword c (List.mem_of_mem_head? hcw)
  last := by
    intro c hc
    rw [normalizeTypeChars, getLast?_spaceStars] at hc
    obtain ⟨word, hword, hcw⟩ := mem_getLast?_joinWith (fun _ => ne_nil_of_mem_words) hc
    exact not_isBlank_of_mem_words hword c (List.mem_of_mem_getLast? hcw)

/-- Only a text of blanks has an empty normal form. -/
theorem normalizeTypeChars_eq_nil_iff :
    normalizeTypeChars cs = [] ↔ ∀ c ∈ cs, isBlank c = true := by
  rw [normalizeTypeChars, spaceStars_eq_nil_iff, ← words_eq_nil_iff]
  constructor
  · intro hjoined
    cases hwords : words cs with
    | nil => rfl
    | cons word rest =>
      have hprefix := prefix_joinWith [' '] word rest
      rw [← hwords, hjoined, List.prefix_nil] at hprefix
      exact absurd hprefix (ne_nil_of_mem_words (hwords ▸ List.mem_cons_self))
  · intro hwords
    rw [hwords, joinWith]

/-- Two parts of a text with a blank between them are normalized on their own. -/
theorem normalizeTypeChars_append_blank (hblank : isBlank b = true) (hcs : words cs ≠ [])
    (hds : words ds ≠ []) :
    normalizeTypeChars (cs ++ b :: ds) = normalizeTypeChars cs ++ ' ' :: normalizeTypeChars ds := by
  rw [normalizeTypeChars, words_append_blank hblank, joinWith_append_joinWith hcs hds,
    List.append_assoc, List.singleton_append, spaceStars_append, spaceStars_cons_space,
    normalizeTypeChars, normalizeTypeChars]

/-- A star set apart behind a type text with a word stays where it is. -/
theorem normalizeTypeChars_append_star (hwords : words cs ≠ []) :
    normalizeTypeChars (cs ++ [' ', '*']) = normalizeTypeChars cs ++ [' ', '*'] :=
  normalizeTypeChars_append_blank isBlank_space hwords (by decide)

namespace IsTypeText

theorem isTrimmed (h : IsTypeText t) : IsTrimmed t :=
  h.normal ▸ isTrimmed_normalizeTypeChars t

theorem eq_space_of_mem (h : IsTypeText t) (hc : c ∈ t) (hblank : isBlank c = true) : c = ' ' :=
  eq_space_of_mem_normalizeTypeChars (h.normal.symm ▸ hc) hblank

end IsTypeText

end CallBridge

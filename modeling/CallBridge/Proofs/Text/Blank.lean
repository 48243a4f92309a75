import CallBridge.Proofs.Text.Pieces
import Mathlib.Data.List.DropRight

/-!
# Blanks at the ends of a text, and words

Trimming leaves a text without blanks at its ends as it is (`trim_eq_self`), and blanks put
before or behind a text change neither its trimmed form nor its words.  `trim_eq_nil_iff` and
`words_eq_nil_iff` say that only a text of blanks comes to nothing.  Words joined by a blank are
the words of what they make (`words_joinWith`), and the words of a text hold all of it but the
blanks (`flatten_words`).
-/

namespace CallBridge.Text

variable {cs ds word : List Char} {b c : Char}

/-- No blank stands at either end of the text. -/
structure IsTrimmed (cs : List Char) : Prop where
  head : ∀ c ∈ cs.head?, isBlank c = false
  last : ∀ c ∈ cs.getLast?, isBlank c = false

/-! ## Trimming -/

theorem trimStart_cons (hc : isBlank c = false) : trimStart (c :: cs) = c :: cs :=
  List.dropWhile_cons_of_neg (by simp [hc])

theorem trimStart_eq_self (h : ∀ c ∈ cs.head?, isBlank c = false) : trimStart cs = cs := by
  cases cs with
  | nil => rfl
  | cons c cs => exact trimStart_cons (h c rfl)

theorem trimEnd_eq_self (h : ∀ c ∈ cs.getLast?, isBlank c = false) : trimEnd cs = cs := by
  have hrev : trimStart cs.reverse = cs.reverse :=
    trimStart_eq_self (by simpa only [List.head?_reverse] using h)
  rw [trimEnd, ← trimStart, hrev, List.reverse_reverse]

theorem trimEnd_concat (hblank : isBlank b = true) : trimEnd (cs ++ [b]) = trimEnd cs := by
  rw [trimEnd, List.reverse_append, List.reverse_singleton, List.singleton_append,
    List.dropWhile_cons_of_pos hblank, trimEnd]

/-- Up to a character that is no blank, nothing is lost at the end. -/
theorem trimEnd_append_cons (hc : isBlank c = false) (cs ds : List Char) :
    trimEnd (cs ++ c :: ds) = cs ++ c :: trimEnd ds := by
  induction ds using List.reverseRecOn with
  | nil => exact trimEnd_eq_self (by simpa using hc)
  | append_singleton ds b ih =>
    cases hb : isBlank b with
    | true =>
      have hsplit : cs ++ c :: (ds ++ [b]) = (cs ++ c :: ds) ++ [b] := by simp
      rw [hsplit, trimEnd_concat hb, ih, trimEnd_concat hb]
    | false =>
      have hlast : ∀ front : List Char, ∀ d ∈ (front ++ [b]).getLast?, isBlank d = false := by
        intro front d hd
        rw [List.getLast?_concat] at hd
        exact Option.some.inj hd ▸ hb
      rw [trimEnd_eq_self (hlast ds), ← List.cons_append, ← List.append_assoc,
        trimEnd_eq_self (hlast (cs ++ c :: ds))]

/-- From a character that is no blank on, nothing is lost at the start. -/
theorem trimStart_append_cons (hc : isBlank c = false) (cs ds : List Char) :
    trimStart (cs ++ c :: ds) = trimStart cs ++ c :: ds := by
  induction cs with
  | nil => exact trimStart_cons hc
  | cons b cs ih =>
    cases hb : isBlank b with
    | true =>
      rw [List.cons_append, trimStart, List.dropWhile_cons_of_pos hb, ← trimStart, ih, trimStart,
        trimStart, List.dropWhile_cons_of_pos hb]
    | false => rw [List.cons_append, trimStart_cons hb, trimStart_cons hb, List.cons_append]

theorem trim_append_cons (hc : isBlank c = false) (cs ds : List Char) :
    trim (cs ++ c :: ds) = trimStart cs ++ c :: trimEnd ds := by
  rw [trim, trimStart_append_cons hc, trimEnd_append_cons hc]

theorem exists_trimEnd_append_blanks (cs : List Char) :
    ∃ blanks, (∀ b ∈ blanks, isBlank b = true) ∧ cs = trimEnd cs ++ blanks :=
  ⟨cs.rtakeWhile isBlank, fun _ hb => List.mem_rtakeWhile_imp hb,
    List.rdropWhile_append_rtakeWhile.symm⟩

/-- A text is what trimming leaves, with blanks before and behind it. -/
theorem exists_eq_append_trim (cs : List Char) :
    ∃ blanks, (∀ b ∈ blanks, isBlank b = true) ∧
      cs = cs.takeWhile isBlank ++ (trim cs ++ blanks) := by
  obtain ⟨blanks, hblanks, htrim⟩ := exists_trimEnd_append_blanks (trimStart cs)
  refine ⟨blanks, hblanks, ?_⟩
  rw [trim, ← htrim, takeWhile_append_trimStart]

theorem trim_eq_self (h : IsTrimmed cs) : trim cs = cs := by
  rw [trim, trimStart_eq_self h.head, trimEnd_eq_self h.last]

theorem trim_cons (hblank : isBlank b = true) : trim (b :: cs) = trim cs := by
  rw [trim, trimStart, List.dropWhile_cons_of_pos hblank, trim, trimStart]

theorem trim_concat (hblank : isBlank b = true) : trim (cs ++ [b]) = trim cs := by
  induction cs with
  | nil => exact trim_cons hblank
  | cons c cs ih =>
    cases hc : isBlank c with
    | true => rw [List.cons_append, trim_cons hc, ih, trim_cons hc]
    | false =>
      rw [trim, List.cons_append, trimStart_cons hc, ← List.cons_append, trimEnd_concat hblank,
        trim, trimStart_cons hc]

theorem trim_blanks_append (hblanks : ∀ b ∈ ds, isBlank b = true) (cs : List Char) :
    trim (ds ++ cs) = trim cs := by
  induction ds with
  | nil => rfl
  | cons d ds ih =>
    obtain ⟨hd, hds⟩ := List.forall_mem_cons.mp hblanks
    rw [List.cons_append, trim_cons hd, ih hds]

theorem trim_append_blanks (hblanks : ∀ b ∈ ds, isBlank b = true) (cs : List Char) :
    trim (cs ++ ds) = trim cs := by
  induction ds using List.reverseRecOn with
  | nil => rw [List.append_nil]
  | append_singleton ds d ih =>
    obtain ⟨hds, hd⟩ := List.forall_mem_append.mp hblanks
    rw [← List.append_assoc, trim_concat (hd d (List.mem_singleton_self d)), ih hds]

/-- What has been trimmed ends in no blank. -/
theorem trimEnd_trim (cs : List Char) : trimEnd (trim cs) = trim cs :=
  List.rdropWhile_idempotent isBlank (trimStart cs)

/-- Trimming leaves nothing of a text of blanks, and something of any other. -/
theorem trim_eq_nil_iff : trim cs = [] ↔ ∀ c ∈ cs, isBlank c = true := by
  induction cs with
  | nil => exact iff_of_true rfl (List.forall_mem_nil _)
  | cons c cs ih =>
    cases hc : isBlank c with
    | true => rw [trim_cons hc, ih, List.forall_mem_cons, and_iff_right hc]
    | false =>
      have hblank : trimEnd (c :: cs) = [] ↔ ∀ d ∈ c :: cs, isBlank d = true :=
        List.rdropWhile_eq_nil_iff
      rw [trim, trimStart_cons hc, hblank]

/-- The head of the first part and the last character of the second decide. -/
theorem isTrimmed_append (hcs : cs ≠ []) (hds : ds ≠ [])
    (hhead : ∀ c ∈ cs.head?, isBlank c = false) (hlast : ∀ c ∈ ds.getLast?, isBlank c = false) :
    IsTrimmed (cs ++ ds) where
  head := by
    obtain ⟨c, cs, rfl⟩ := List.exists_cons_of_ne_nil hcs
    exact hhead
  last := by
    rw [List.getLast?_append, List.getLast?_eq_some_getLast hds, Option.some_or,
      ← List.getLast?_eq_some_getLast hds]
    exact hlast

theorem isTrimmed_cons_concat (hb : isBlank b = false) (hc : isBlank c = false)
    (cs : List Char) : IsTrimmed (b :: (cs ++ [c])) := by
  rw [← List.cons_append]
  exact isTrimmed_append (List.cons_ne_nil _ _) (List.cons_ne_nil _ _) (by simpa using hb)
    (by simpa using hc)

theorem isInfix_trim (cs : List Char) : trim cs <:+: cs := by
  have hend : trim cs <+: trimStart cs := by
    have hsuffix := List.dropWhile_suffix isBlank (l := (trimStart cs).reverse)
    simpa only [List.reverse_reverse, trim, trimEnd] using List.reverse_prefix.mpr hsuffix
  exact hend.isInfix.trans (List.dropWhile_suffix isBlank).isInfix

/-! ## Words -/

theorem not_isBlank_of_mem_words (hword : word ∈ words cs) : ∀ c ∈ word, isBlank c = false :=
  separates_eq_false_of_mem_pieces (List.mem_filter.mp hword).1

theorem ne_nil_of_mem_words (hword : word ∈ words cs) : word ≠ [] := by
  have hfilter := (List.mem_filter.mp hword).2
  simpa using hfilter

/-- A blank ends a word, and the words behind it are read on their own. -/
theorem words_append_blank (hblank : isBlank b = true) (cs ds : List Char) :
    words (cs ++ b :: ds) = words cs ++ words ds := by
  rw [words, pieces_append_mark hblank, List.filter_append, words, words]

theorem words_of_not_isBlank (hne : word ≠ []) (hword : ∀ c ∈ word, isBlank c = false) :
    words word = [word] := by
  rw [words, pieces_of_not_separates hword]
  exact List.filter_eq_self.mpr (by simpa using hne)

/-- The words of words that are joined by a blank are these words. -/
theorem words_joinWith {ws : List (List Char)} (hblank : isBlank b = true)
    (hne : ∀ word ∈ ws, word ≠ []) (hws : ∀ word ∈ ws, ∀ c ∈ word, isBlank c = false) :
    words (joinWith [b] ws) = ws := by
  induction ws with
  | nil => rfl
  | cons word rest ih =>
    obtain ⟨hword_ne, hrest_ne⟩ := List.forall_mem_cons.mp hne
    obtain ⟨hword, hrest⟩ := List.forall_mem_cons.mp hws
    cases rest with
    | nil => exact words_of_not_isBlank hword_ne hword
    | cons next rest =>
      rw [joinWith_cons_cons, List.append_assoc, List.singleton_append, words_append_blank hblank,
        words_of_not_isBlank hword_ne hword, ih hrest_ne hrest, List.singleton_append]

theorem words_concat_blank (hblank : isBlank b = true) (cs : List Char) :
    words (cs ++ [b]) = words cs := by
  rw [words_append_blank hblank]
  exact List.append_nil _

theorem words_cons_blank (hblank : isBlank b = true) (cs : List Char) :
    words (b :: cs) = words cs :=
  words_append_blank hblank [] cs

theorem words_blanks_append (hblanks : ∀ b ∈ ds, isBlank b = true) (cs : List Char) :
    words (ds ++ cs) = words cs := by
  induction ds with
  | nil => rfl
  | cons d ds ih =>
    obtain ⟨hd, hds⟩ := List.forall_mem_cons.mp hblanks
    rw [List.cons_append, words_cons_blank hd, ih hds]

theorem words_append_blanks (hblanks : ∀ b ∈ ds, isBlank b = true) (cs : List Char) :
    words (cs ++ ds) = words cs := by
  cases ds with
  | nil => rw [List.append_nil]
  | cons d ds =>
    obtain ⟨hd, hds⟩ := List.forall_mem_cons.mp hblanks
    have hnone := words_blanks_append hds []
    rw [List.append_nil] at hnone
    rw [words_append_blank hd, hnone]
    exact List.append_nil _

theorem words_trim (cs : List Char) : words (trim cs) = words cs := by
  obtain ⟨blanks, hblanks, hcs⟩ := exists_eq_append_trim cs
  have hfront : ∀ b ∈ cs.takeWhile isBlank, isBlank b = true := fun _ hb =>
    List.mem_takeWhile_imp hb
  rw [hcs, words_blanks_append hfront, words_append_blanks hblanks, ← hcs]

/-- A text of blanks has no words, and any other text has one. -/
theorem words_eq_nil_iff : words cs = [] ↔ ∀ c ∈ cs, isBlank c = true := by
  induction cs with
  | nil => exact iff_of_true rfl (List.forall_mem_nil _)
  | cons c cs ih =>
    rw [List.forall_mem_cons, ← ih]
    cases hc : isBlank c with
    | true => rw [words_cons_blank hc, and_iff_right rfl]
    | false =>
      refine iff_of_false ?_ (fun h => Bool.false_ne_true h.1)
      obtain ⟨first, rest, hpieces⟩ := List.exists_cons_of_ne_nil (pieces_ne_nil isBlank cs)
      rw [words, pieces, hc, hpieces]
      exact List.cons_ne_nil _ _

/-! ## Solid characters -/

/-- The characters of a text that are no blanks. -/
def solid (cs : List Char) : List Char :=
  cs.filter fun c => !isBlank c

theorem solid_append_blank (hblank : isBlank b = true) (cs ds : List Char) :
    solid (cs ++ b :: ds) = solid cs ++ solid ds := by
  rw [solid, List.filter_append, List.filter_cons_of_neg (by simp [hblank]), solid, solid]

/-- The words of a text hold all its solid characters. -/
theorem flatten_words (cs : List Char) : (words cs).flatten = solid cs := by
  rw [words, List.flatten_filter_not_isEmpty, flatten_pieces, solid]

theorem words_ne_nil_of_solid (h : solid cs ≠ []) : words cs ≠ [] := by
  intro hnil
  rw [← flatten_words, hnil] at h
  exact h rfl

/-- A text that ends in no blank ends as its solid characters do. -/
theorem getLast?_solid (h : ∀ c ∈ cs.getLast?, isBlank c = false) :
    (solid cs).getLast? = cs.getLast? := by
  induction cs using List.reverseRecOn with
  | nil => rfl
  | append_singleton cs c _ =>
    have hc : isBlank c = false := h c List.getLast?_concat
    rw [solid, List.filter_append, List.filter_cons_of_pos (by simp [hc]), List.filter_nil,
      List.getLast?_concat, List.getLast?_concat]

end CallBridge.Text

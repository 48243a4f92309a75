import CallBridge.Proofs.TypeText
import Mathlib.Data.List.SplitBy

/-!
# What normalizing does to a type text

A type text is cut into words, and each word before the stars that follow something other than a
star (`starParts`).  Its normal form is these parts, one space apart
(`normalizeTypeChars_eq_joinWith`), and everything else is read off there:

* `isNormalForm_normalizeTypeChars`: which characters of a normal form stand side by side;
* `words_normalizeTypeChars`, `solid_normalizeTypeChars`: no character is lost but blanks, and none
  but blanks is added;
* `isApart_normalizeTypeChars`: what a blank keeps apart stays apart;
* `normalizeTypeChars_idem`: normalizing twice is normalizing once.

`normalForm_of_typeText` puts it together.
-/

namespace CallBridge

open Text

variable {cs part word : List Char} {previous : Option Char} {first second : Char} {i j : Nat}

/-- Whether the second of two neighbours in a word stays right behind the first one: it is no star,
or one of several in a row. -/
def staysBehind (first second : Char) : Bool :=
  second != '*' || first == '*'

/-- The parts of a word, cut before each star that follows something other than a star. -/
def starParts (word : List Char) : List (List Char) :=
  word.splitBy staysBehind

/-- If the second of two neighbours is a star, the first one is a space or a star. -/
def SetsStarApart (first second : Char) : Prop :=
  second = '*' → first = ' ' ∨ first = '*'

/-- A type text whose blanks are single spaces between other characters, and whose stars are set
apart from what stands before them. -/
structure IsNormalForm (t : List Char) : Prop where
  trimmed : IsTrimmed t
  spaces : ∀ c ∈ t, isBlank c = true → c = ' '
  single : t.IsChain fun first second => isBlank first = true → isBlank second = false
  stars : t.IsChain SetsStarApart

/-- A blank stands in a text between two of its solid characters, which are given by their numbers. -/
def IsApart (cs : List Char) (i j : Nat) : Prop :=
  ∃ front b back, cs = front ++ b :: back ∧ isBlank b = true ∧ i < (solid front).length ∧
    (solid front).length ≤ j ∧ j < (solid cs).length

/-! ## Parts of a word -/

theorem flatten_starParts (word : List Char) : (starParts word).flatten = word :=
  List.flatten_splitBy staysBehind word

theorem starParts_ne_nil (hword : word ≠ []) : starParts word ≠ [] :=
  List.splitBy_ne_nil.mpr hword

theorem ne_nil_of_mem_starParts (hpart : part ∈ starParts word) : part ≠ [] :=
  List.ne_nil_of_mem_splitBy hpart

theorem subset_of_mem_starParts (hpart : part ∈ starParts word) : part ⊆ word := by
  intro c hc
  rw [← flatten_starParts word]
  exact List.mem_flatten_of_mem hpart hc

theorem setsStarApart_of_staysBehind (h : staysBehind first second = true) :
    SetsStarApart first second := by
  intro hstar
  simp [staysBehind, hstar] at h
  exact .inr h

theorem isChain_of_mem_starParts (hpart : part ∈ starParts word) : part.IsChain SetsStarApart :=
  (List.isChain_of_mem_splitBy hpart).imp fun _ _ => setsStarApart_of_staysBehind

/-! ## From words to parts -/

/-- Where all stars are set apart already, nothing changes. -/
theorem spaceStars_eq_self (hcs : cs.IsChain SetsStarApart)
    (hfirst : ∀ p ∈ previous, ∀ c ∈ cs.head?, SetsStarApart p c) : spaceStars previous cs = cs := by
  induction cs generalizing previous with
  | nil => cases previous <;> rfl
  | cons c cs ih =>
    obtain ⟨hnext, hrest⟩ := List.isChain_cons.mp hcs
    have hself : spaceStars (some c) cs = cs := ih hrest (by simpa using hnext)
    cases previous with
    | none => rw [spaceStars, hself]
    | some p =>
      have hp : ¬ (c = '*' ∧ p ≠ ' ' ∧ p ≠ '*') := by
        rintro ⟨hstar, hspace, hother⟩
        exact (hfirst p rfl c rfl hstar).elim hspace hother
      rw [spaceStars, if_neg hp, hself]

/-- Parts that are cut exactly where a star has to be set apart come to stand one space apart. -/
theorem spaceStars_flatten {parts : List (List Char)} (hspace : ∀ part ∈ parts, ' ' ∉ part)
    (hstars : ∀ part ∈ parts, part.IsChain SetsStarApart)
    (hcuts : parts.IsChain fun part next =>
      ∃ hpart hnext, staysBehind (part.getLast hpart) (next.head hnext) = false) :
    spaceStars none parts.flatten = joinWith [' '] parts := by
  induction parts with
  | nil => rfl
  | cons part rest ih =>
    obtain ⟨hpart_space, hrest_space⟩ := List.forall_mem_cons.mp hspace
    obtain ⟨hpart_stars, hrest_stars⟩ := List.forall_mem_cons.mp hstars
    have hself : spaceStars none part = part := spaceStars_eq_self hpart_stars nofun
    cases rest with
    | nil => rw [List.flatten_singleton, hself, joinWith]
    | cons next rest =>
      obtain ⟨⟨hpart, hnext, hcut⟩, hrest_cuts⟩ := List.isChain_cons_cons.mp hcuts
      obtain ⟨c, tail, rfl⟩ := List.exists_cons_of_ne_nil hnext
      have hstar : c = '*' ∧ part.getLast hpart ≠ '*' := by simpa [staysBehind] using hcut
      have hlast : part.getLast hpart ≠ ' ' := fun hsame =>
        hpart_space (hsame ▸ List.getLast_mem hpart)
      have hapart : spaceStars (part.getLast?.or none) ((c :: tail) :: rest).flatten =
          ' ' :: spaceStars none ((c :: tail) :: rest).flatten := by
        rw [List.getLast?_eq_some_getLast hpart]
        simp [spaceStars, hstar, hlast]
      rw [List.flatten_cons, spaceStars_append, hself, hapart, ih hrest_space hrest_stars hrest_cuts,
        joinWith_cons_cons, List.append_assoc, List.singleton_append]

theorem spaceStars_word (hword : ' ' ∉ word) :
    spaceStars none word = joinWith [' '] (starParts word) := by
  have hparts : spaceStars none (starParts word).flatten = joinWith [' '] (starParts word) :=
    spaceStars_flatten (fun _ hpart hspace => hword (subset_of_mem_starParts hpart hspace))
      (fun _ => isChain_of_mem_starParts) (List.isChain_getLast_head_splitBy staysBehind word)
  rwa [flatten_starParts] at hparts

theorem spaceStars_joinWith {ws : List (List Char)} (hne : ∀ word ∈ ws, word ≠ [])
    (hspace : ∀ word ∈ ws, ' ' ∉ word) :
    spaceStars none (joinWith [' '] ws) = joinWith [' '] (ws.flatMap starParts) := by
  induction ws with
  | nil => rfl
  | cons word rest ih =>
    obtain ⟨hword, hrest⟩ := List.forall_mem_cons.mp hne
    obtain ⟨hword_space, hrest_space⟩ := List.forall_mem_cons.mp hspace
    cases rest with
    | nil => rw [joinWith, spaceStars_word hword_space, List.flatMap_singleton]
    | cons next rest =>
      obtain ⟨hnext, -⟩ := List.forall_mem_cons.mp hrest
      have hparts : (next :: rest).flatMap starParts ≠ [] :=
        List.append_ne_nil_of_left_ne_nil (starParts_ne_nil hnext) _
      have hcons : (word :: next :: rest).flatMap starParts =
          starParts word ++ (next :: rest).flatMap starParts :=
        List.flatMap_cons
      rw [joinWith_cons_cons, List.append_assoc, List.singleton_append, spaceStars_append,
        spaceStars_cons_space, spaceStars_word hword_space, ih hrest hrest_space, hcons,
        joinWith_append_joinWith (starParts_ne_nil hword) hparts, List.append_assoc,
        List.singleton_append]

/-- A normal form is the parts of the words of a text, one space apart. -/
theorem normalizeTypeChars_eq_joinWith (cs : List Char) :
    normalizeTypeChars cs = joinWith [' '] ((words cs).flatMap starParts) := by
  refine spaceStars_joinWith (fun _ => ne_nil_of_mem_words) fun word hword hspace => ?_
  have hsolid := not_isBlank_of_mem_words hword ' ' hspace
  rw [isBlank_space] at hsolid
  contradiction

/-! ## Words and solid characters -/

theorem ne_nil_of_mem_parts (hpart : part ∈ (words cs).flatMap starParts) : part ≠ [] := by
  obtain ⟨word, -, hpart⟩ := List.mem_flatMap.mp hpart
  exact ne_nil_of_mem_starParts hpart

theorem not_isBlank_of_mem_parts (hpart : part ∈ (words cs).flatMap starParts) :
    ∀ c ∈ part, isBlank c = false := by
  obtain ⟨word, hword, hpart⟩ := List.mem_flatMap.mp hpart
  intro c hc
  exact not_isBlank_of_mem_words hword c (subset_of_mem_starParts hpart hc)

theorem words_normalizeTypeChars (cs : List Char) :
    words (normalizeTypeChars cs) = (words cs).flatMap starParts := by
  rw [normalizeTypeChars_eq_joinWith]
  exact words_joinWith isBlank_space (fun _ => ne_nil_of_mem_parts) fun _ => not_isBlank_of_mem_parts

theorem solid_normalizeTypeChars (cs : List Char) : solid (normalizeTypeChars cs) = solid cs := by
  rw [← flatten_words, words_normalizeTypeChars, ← flatten_words]
  induction words cs with
  | nil => rfl
  | cons word rest ih =>
    rw [List.flatMap_cons, List.flatten_append, flatten_starParts, ih, List.flatten_cons]

/-- A solid character at the end of a text stays at the end. -/
theorem getLast?_normalizeTypeChars (h : ∀ c ∈ cs.getLast?, isBlank c = false) :
    (normalizeTypeChars cs).getLast? = cs.getLast? := by
  rw [← getLast?_solid (isTrimmed_normalizeTypeChars cs).last, solid_normalizeTypeChars,
    getLast?_solid h]

theorem isApart_normalizeTypeChars (h : IsApart cs i j) : IsApart (normalizeTypeChars cs) i j := by
  obtain ⟨front, b, back, rfl, hblank, hi, hbetween, hj⟩ := h
  have hfront : solid front ≠ [] := List.ne_nil_of_length_pos (Nat.zero_lt_of_lt hi)
  have hback : solid back ≠ [] := by
    intro hnil
    rw [solid_append_blank hblank, hnil, List.append_nil] at hj
    exact absurd hbetween (Nat.not_le.mpr hj)
  refine ⟨normalizeTypeChars front, ' ', normalizeTypeChars back,
    normalizeTypeChars_append_blank hblank (words_ne_nil_of_solid hfront) (words_ne_nil_of_solid hback),
    isBlank_space, ?_⟩
  rw [solid_normalizeTypeChars, solid_normalizeTypeChars]
  exact ⟨hi, hbetween, hj⟩

/-! ## Normal form -/

theorem isNormalForm_normalizeTypeChars (cs : List Char) : IsNormalForm (normalizeTypeChars cs) where
  trimmed := isTrimmed_normalizeTypeChars cs
  spaces := fun _ => eq_space_of_mem_normalizeTypeChars
  single := by
    rw [normalizeTypeChars_eq_joinWith]
    refine isChain_joinWith (fun _ => ne_nil_of_mem_parts) (fun part hpart => ?_)
      fun part hpart c hc => ?_
    · exact List.isChain_iff_getElem.mpr fun i hi _ =>
        not_isBlank_of_mem_parts hpart _ (List.getElem_mem hi)
    · have hsolid : isBlank c = false := not_isBlank_of_mem_parts hpart c hc
      exact ⟨fun hblank => absurd hblank (by simp [hsolid]), fun _ => hsolid⟩
  stars := by
    rw [normalizeTypeChars_eq_joinWith]
    refine isChain_joinWith (fun _ => ne_nil_of_mem_parts) (fun part hpart => ?_)
      fun part hpart c hc => ?_
    · obtain ⟨word, -, hpart⟩ := List.mem_flatMap.mp hpart
      exact isChain_of_mem_starParts hpart
    · exact ⟨nofun, fun _ => .inl rfl⟩

/-- The words of a normal form make it up again, and its stars are set apart already. -/
theorem normalizeTypeChars_idem (cs : List Char) :
    normalizeTypeChars (normalizeTypeChars cs) = normalizeTypeChars cs := by
  calc normalizeTypeChars (normalizeTypeChars cs)
      = spaceStars none (joinWith [' '] (words (normalizeTypeChars cs))) := rfl
    _ = spaceStars none (normalizeTypeChars cs) := by
        rw [words_normalizeTypeChars, ← normalizeTypeChars_eq_joinWith]
    _ = normalizeTypeChars cs :=
        spaceStars_eq_self (isNormalForm_normalizeTypeChars cs).stars nofun

theorem toList_normalizeType (s : String) :
    (normalizeType s).toList = normalizeTypeChars s.toList :=
  String.toList_ofList

theorem normalizeType_idem (s : String) : normalizeType (normalizeType s) = normalizeType s := by
  rw [normalizeType, toList_normalizeType, normalizeTypeChars_idem, normalizeType]

/-- What normalizing makes of a type text, whatever the text is.

* The result is a normal form.
* Its solid characters are those of the text, in the same order, and where a blank keeps two of them
  apart in the text, one does so in the result.
* Its words are those of the text, each cut before the stars that follow something other than a star,
  and nowhere else.
* It depends on the words of the text alone.
* Normalizing it again leaves it as it is. -/
theorem normalForm_of_typeText (text : String) :
    let result := normalizeType text
    IsNormalForm result.toList ∧
    (solid result.toList = solid text.toList ∧
      ∀ i j, IsApart text.toList i j → IsApart result.toList i j) ∧
    words result.toList = (words text.toList).flatMap starParts ∧
    (∀ other : String, words other.toList = words text.toList → normalizeType other = result) ∧
    normalizeType result = result := by
  intro result
  have hresult : result.toList = normalizeTypeChars text.toList := toList_normalizeType text
  rw [hresult]
  refine ⟨isNormalForm_normalizeTypeChars _, ⟨solid_normalizeTypeChars _, ?_⟩,
    words_normalizeTypeChars _, ?_, normalizeType_idem text⟩
  · intro i j
    exact isApart_normalizeTypeChars
  · intro other hwords
    show normalizeType other = normalizeType text
    rw [normalizeType, normalizeTypeChars, hwords, normalizeType, normalizeTypeChars]

/-- Stars behind a word, in a row and on their own, between blanks of three kinds. -/
example : normalizeType "\tconst GLchar*\u3000const**\n  * " = "const GLchar * const ** *" := by
  decide +kernel

end CallBridge

import CallBridge.Text.Blank
import Mathlib.Data.List.Chain

/-!
# Pieces of a text

Cutting at the characters of a class and joining again are inverse to each other, as long as
no piece holds such a character.

* `separates_eq_false_of_mem_pieces`: no piece holds a separator;
* `pieces_append_mark`: a text is cut at a separator, and its two parts are cut on their own;
* `flatten_pieces`: the pieces hold all characters but the separators;
* `pieces_joinWith`: cutting gives back what has been joined;
* `isChain_joinWith`: which characters stand side by side in what has been joined.
-/

namespace CallBridge.Text

variable {separates : Char → Bool} {piece cs separator : List Char} {ps qs : List (List Char)}
  {c : Char}

/-! ## Cutting -/

theorem pieces_of_not_separates (h : ∀ c ∈ piece, separates c = false) :
    pieces separates piece = [piece] := by
  induction piece with
  | nil => rfl
  | cons c piece ih =>
    obtain ⟨hc, hrest⟩ := List.forall_mem_cons.mp h
    rw [pieces, hc, ih hrest]
    rfl

/-- A text is cut at each separator, and apart from it the parts before and behind are cut on
their own. -/
theorem pieces_append_mark {mark : Char} (hmark : separates mark = true) (cs ds : List Char) :
    pieces separates (cs ++ mark :: ds) = pieces separates cs ++ pieces separates ds := by
  induction cs with
  | nil => simp [pieces, hmark]
  | cons c cs ih =>
    obtain ⟨first, rest, hfirst⟩ := List.exists_cons_of_ne_nil (pieces_ne_nil separates cs)
    rw [List.cons_append, pieces, ih, pieces, hfirst]
    split <;> rfl

/-- Cutting takes nothing away but the separators. -/
theorem flatten_pieces (separates : Char → Bool) (cs : List Char) :
    (pieces separates cs).flatten = cs.filter fun c => !separates c := by
  induction cs with
  | nil => rfl
  | cons c cs ih =>
    obtain ⟨first, rest, hpieces⟩ := List.exists_cons_of_ne_nil (pieces_ne_nil separates cs)
    rw [hpieces, List.flatten_cons] at ih
    rw [pieces, hpieces]
    cases hc : separates c with
    | true => simp [hc, ih]
    | false => simp [hc, consFirst, ih]

/-- A text is cut at its first separator and then behind it. -/
theorem pieces_append_cons (h : ∀ c ∈ piece, separates c = false) {mark : Char}
    (hmark : separates mark = true) (cs : List Char) :
    pieces separates (piece ++ mark :: cs) = piece :: pieces separates cs := by
  rw [pieces_append_mark hmark, pieces_of_not_separates h, List.singleton_append]

theorem separates_eq_false_of_mem_pieces (hmem : piece ∈ pieces separates cs) :
    ∀ c ∈ piece, separates c = false := by
  induction cs generalizing piece with
  | nil =>
    rw [pieces, List.mem_singleton] at hmem
    rw [hmem]
    exact List.forall_mem_nil _
  | cons d cs ih =>
    rw [pieces] at hmem
    by_cases hd : separates d = true
    · rw [if_pos hd] at hmem
      rcases List.mem_cons.mp hmem with rfl | hrest
      · exact List.forall_mem_nil _
      · exact ih hrest
    · rw [if_neg hd] at hmem
      obtain ⟨first, rest, hpieces⟩ := List.exists_cons_of_ne_nil (pieces_ne_nil separates cs)
      rw [hpieces] at ih hmem
      rcases List.mem_cons.mp hmem with rfl | hrest
      · exact List.forall_mem_cons.mpr ⟨by simpa using hd, ih List.mem_cons_self⟩
      · exact ih (List.mem_cons_of_mem _ hrest)

/-! ## Joined words -/

theorem joinWith_cons_cons (separator piece next : List Char) (rest : List (List Char)) :
    joinWith separator (piece :: next :: rest) =
      piece ++ separator ++ joinWith separator (next :: rest) :=
  rfl

/-- Cutting gives back what has been joined. -/
theorem pieces_joinWith {mark : Char} (hne : ps ≠ [])
    (hfree : ∀ piece ∈ ps, mark ∉ piece) :
    pieces (· == mark) (joinWith [mark] ps) = ps := by
  induction ps with
  | nil => exact absurd rfl hne
  | cons piece rest ih =>
    obtain ⟨hpiece, hrest⟩ := List.forall_mem_cons.mp hfree
    have hnot : ∀ c ∈ piece, (c == mark) = false := by
      intro c hc
      rw [beq_eq_false_iff_ne]
      rintro rfl
      exact hpiece hc
    cases rest with
    | nil => exact pieces_of_not_separates hnot
    | cons next rest =>
      rw [joinWith_cons_cons, List.append_assoc, List.singleton_append,
        pieces_append_cons hnot (beq_self_eq_true mark), ih (List.cons_ne_nil _ _) hrest]

theorem prefix_joinWith (separator piece : List Char) (rest : List (List Char)) :
    piece <+: joinWith separator (piece :: rest) := by
  cases rest with
  | nil => exact List.prefix_rfl
  | cons next rest => exact ⟨separator ++ joinWith separator (next :: rest), by simp [joinWith]⟩

/-- Joined pieces are those before one of them, each with the separator behind it, and the
others. -/
theorem joinWith_append (separator : List Char) (ps : List (List Char)) (piece : List Char)
    (rest : List (List Char)) :
    joinWith separator (ps ++ piece :: rest) =
      ps.flatMap (· ++ separator) ++ joinWith separator (piece :: rest) := by
  induction ps with
  | nil => rfl
  | cons p ps ih =>
    rw [List.cons_append, joinWith, ih, List.flatMap_cons]
    · simp only [List.append_assoc]
    · exact List.append_ne_nil_of_right_ne_nil ps (List.cons_ne_nil piece rest)

theorem joinWith_append_joinWith (hps : ps ≠ []) (hqs : qs ≠ []) (separator : List Char) :
    joinWith separator (ps ++ qs) = joinWith separator ps ++ separator ++ joinWith separator qs := by
  obtain ⟨q, qs, rfl⟩ := List.exists_cons_of_ne_nil hqs
  induction ps with
  | nil => exact absurd rfl hps
  | cons p rest ih =>
    cases rest with
    | nil => rfl
    | cons next rest =>
      rw [joinWith_cons_cons, List.cons_append, List.cons_append, joinWith_cons_cons,
        ← List.cons_append, ih (List.cons_ne_nil _ _)]
      simp only [List.append_assoc]

/-- Strings are joined as their characters are. -/
theorem toList_intercalate (s : String) (parts : List String) :
    (s.intercalate parts).toList = joinWith s.toList (parts.map String.toList) := by
  rw [String.toList_intercalate]
  induction parts with
  | nil => rfl
  | cons part rest ih =>
    cases rest with
    | nil => simp [joinWith]
    | cons next rest =>
      rw [List.map_cons, List.map_cons, List.intercalate_cons_cons, ← List.map_cons, ih]
      rfl

theorem mem_joinWith
    (hc : c ∈ joinWith separator ps) : c ∈ separator ∨ ∃ piece ∈ ps, c ∈ piece := by
  induction ps with
  | nil => exact absurd hc List.not_mem_nil
  | cons piece rest ih =>
    cases rest with
    | nil => exact .inr ⟨piece, List.mem_singleton_self piece, hc⟩
    | cons next rest =>
      rw [joinWith_cons_cons, List.append_assoc, List.mem_append, List.mem_append] at hc
      rcases hc with hpiece | hsep | hrest
      · exact .inr ⟨piece, List.mem_cons_self, hpiece⟩
      · exact .inl hsep
      · rcases ih hrest with hsep | ⟨p, hp, hcp⟩
        · exact .inl hsep
        · exact .inr ⟨p, List.mem_cons_of_mem _ hp, hcp⟩

theorem mem_head?_joinWith
    (hne : ∀ piece ∈ ps, piece ≠ []) (hc : c ∈ (joinWith separator ps).head?) :
    ∃ piece ∈ ps, c ∈ piece.head? := by
  cases ps with
  | nil => exact absurd hc (by simp [joinWith])
  | cons piece rest =>
    have hhead : (joinWith separator (piece :: rest)).head? = piece.head? := by
      obtain ⟨d, ds, rfl⟩ := List.exists_cons_of_ne_nil (hne piece List.mem_cons_self)
      cases rest <;> rfl
    exact ⟨piece, List.mem_cons_self, hhead ▸ hc⟩

theorem mem_getLast?_joinWith
    (hne : ∀ piece ∈ ps, piece ≠ []) (hc : c ∈ (joinWith separator ps).getLast?) :
    ∃ piece ∈ ps, c ∈ piece.getLast? := by
  induction ps with
  | nil => exact absurd hc (by simp [joinWith])
  | cons piece rest ih =>
    cases rest with
    | nil => exact ⟨piece, List.mem_singleton_self piece, hc⟩
    | cons next rest =>
      have hrest : joinWith separator (next :: rest) ≠ [] := by
        obtain ⟨d, ds, rfl⟩ :=
          List.exists_cons_of_ne_nil (hne next (List.mem_cons_of_mem _ List.mem_cons_self))
        cases rest <;> exact List.cons_ne_nil _ _
      rw [joinWith_cons_cons, List.getLast?_append, List.getLast?_eq_some_getLast hrest,
        Option.some_or, ← List.getLast?_eq_some_getLast hrest] at hc
      obtain ⟨p, hp, hcp⟩ := ih (fun p hp => hne p (List.mem_cons_of_mem _ hp)) hc
      exact ⟨p, List.mem_cons_of_mem _ hp, hcp⟩

/-- Neighbours in joined pieces are neighbours in a piece, or the separator and a character beside
it. -/
theorem isChain_joinWith {r : Char → Char → Prop} {mark : Char} (hne : ∀ piece ∈ ps, piece ≠ [])
    (hps : ∀ piece ∈ ps, piece.IsChain r) (hmark : ∀ piece ∈ ps, ∀ c ∈ piece, r c mark ∧ r mark c) :
    (joinWith [mark] ps).IsChain r := by
  induction ps with
  | nil => exact List.isChain_nil
  | cons piece rest ih =>
    obtain ⟨-, hrest_ne⟩ := List.forall_mem_cons.mp hne
    obtain ⟨hpiece, hrest⟩ := List.forall_mem_cons.mp hps
    obtain ⟨hbeside, hrest_beside⟩ := List.forall_mem_cons.mp hmark
    cases rest with
    | nil => exact hpiece
    | cons next rest =>
      rw [joinWith_cons_cons, List.append_assoc, List.singleton_append, List.isChain_append,
        List.isChain_cons]
      refine ⟨hpiece, ⟨fun c hc => ?_, ih hrest_ne hrest hrest_beside⟩, fun c hc d hd => ?_⟩
      · obtain ⟨other, hother, hco⟩ := mem_head?_joinWith hrest_ne hc
        exact (hrest_beside other hother c (List.mem_of_mem_head? hco)).2
      · obtain rfl := Option.some.inj hd
        exact (hbeside c (List.mem_of_mem_getLast? hc)).1

end CallBridge.Text

import CallBridge.Proofs.Text.Blank
import CallBridge.Text.Match

/-!
# What the steps of a matcher find

A run of a class ends where the text does not go on with the class, so a text is cut behind such a
run in one way (`takeWhile_append_stop`, `eq_of_append_stop`).  From this it follows what the steps
at the front of a text give (`run?_append`, `afterBlanks?_eq_some_iff`).
-/

namespace CallBridge.Text

variable {p : Char → Bool} {cs xs ys as bs rest name : List Char} {c : Char}

/-- What holds of a character holds of the head of a text that begins with it. -/
theorem forall_head?_cons {q : Char → Prop} (h : q c) (cs : List Char) :
    ∀ d ∈ (c :: cs).head?, q d := by
  intro d hd
  obtain rfl := Option.some.inj hd
  exact h

/-- A run of a class before a text that does not go on with the class is as long as possible. -/
theorem takeWhile_append_stop (hxs : ∀ c ∈ xs, p c = true) (has : ∀ c ∈ as.head?, p c = false) :
    (xs ++ as).takeWhile p = xs ∧ (xs ++ as).dropWhile p = as := by
  rw [List.takeWhile_append_of_pos hxs, List.dropWhile_append_of_pos hxs]
  cases as with
  | nil => exact ⟨List.append_nil xs, rfl⟩
  | cons a as =>
    have ha : p a = false := has a rfl
    rw [List.takeWhile_cons_of_neg (by simp [ha]), List.dropWhile_cons_of_neg (by simp [ha])]
    exact ⟨List.append_nil xs, rfl⟩

/-- A text is cut into a run of a class and what does not go on with the class in one way. -/
theorem eq_of_append_stop (hxs : ∀ c ∈ xs, p c = true) (has : ∀ c ∈ as.head?, p c = false)
    (hys : ∀ c ∈ ys, p c = true) (hbs : ∀ c ∈ bs.head?, p c = false) (h : xs ++ as = ys ++ bs) :
    xs = ys ∧ as = bs := by
  obtain ⟨htake, hdrop⟩ := takeWhile_append_stop hxs has
  obtain ⟨htake', hdrop'⟩ := takeWhile_append_stop hys hbs
  rw [h] at htake hdrop
  exact ⟨htake.symm.trans htake', hdrop.symm.trans hdrop'⟩

theorem after?_append (run rest : List Char) : after? run (run ++ rest) = some rest :=
  after?_eq_some_iff.mpr rfl

/-- The run of a class ends where the text does not go on with the class. -/
theorem run?_append (hne : name ≠ []) (hname : ∀ c ∈ name, p c = true)
    (hrest : ∀ c ∈ rest.head?, p c = false) : run? p (name ++ rest) = some (name, rest) := by
  obtain ⟨htake, hdrop⟩ := takeWhile_append_stop hname hrest
  rw [run?, htake, hdrop, if_neg (by simpa using hne)]

/-! ## Blanks -/

theorem not_isBlank_head?_trimStart (cs : List Char) :
    ∀ c ∈ (trimStart cs).head?, isBlank c = false := by
  intro c hc
  have hstop := List.head?_dropWhile_not isBlank cs
  rw [← trimStart, hc] at hstop
  exact hstop

theorem exists_blanks_append_trimStart (cs : List Char) :
    ∃ blanks, (∀ b ∈ blanks, isBlank b = true) ∧ cs = blanks ++ trimStart cs :=
  ⟨cs.takeWhile isBlank, fun b hb => List.all_eq_true.mp List.all_takeWhile b hb,
    (takeWhile_append_trimStart cs).symm⟩

theorem afterBlanks?_append (hne : xs ≠ []) (hxs : ∀ c ∈ xs, isBlank c = true)
    (has : ∀ c ∈ as.head?, isBlank c = false) : afterBlanks? (xs ++ as) = some as := by
  obtain ⟨x, xs, rfl⟩ := List.exists_cons_of_ne_nil hne
  obtain ⟨hx, hrest⟩ := List.forall_mem_cons.mp hxs
  rw [List.cons_append, afterBlanks?, if_pos hx, trimStart, (takeWhile_append_stop hrest has).2]

theorem afterBlanks?_cons_space (h : ∀ d ∈ cs.head?, isBlank d = false) :
    afterBlanks? (' ' :: cs) = some cs :=
  afterBlanks?_append (List.cons_ne_nil ' ' []) (by simpa using isBlank_space) h

/-- What follows one or more blanks does not begin with a blank. -/
theorem afterBlanks?_eq_some_iff :
    afterBlanks? cs = some rest ↔ ∃ blanks, blanks ≠ [] ∧ (∀ b ∈ blanks, isBlank b = true) ∧
      (∀ c ∈ rest.head?, isBlank c = false) ∧ cs = blanks ++ rest := by
  constructor
  · intro h
    cases cs with
    | nil => contradiction
    | cons c cs =>
      rw [afterBlanks?] at h
      split at h
      · rename_i hc
        obtain rfl := Option.some.inj h
        obtain ⟨blanks, hblanks, heq⟩ := exists_blanks_append_trimStart cs
        exact ⟨c :: blanks, List.cons_ne_nil _ _, List.forall_mem_cons.mpr ⟨hc, hblanks⟩,
          not_isBlank_head?_trimStart cs, congrArg (c :: ·) heq⟩
      · contradiction
  · rintro ⟨blanks, hne, hblanks, hrest, rfl⟩
    exact afterBlanks?_append hne hblanks hrest

end CallBridge.Text

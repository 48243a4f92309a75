import CallBridge.Proofs.Header.Line

/-!
# Readings from the calling convention on

From the blanks before `APIENTRY` on, a prototype line leaves one choice: how far the arguments
reach.

* `exists_of_argumentsOf?`, `exists_argumentsOf?_eq`: the longest arguments are taken;
* `CalleeReading.head_eq_of_text_eq`: all before the arguments is read in one way;
* `exists_of_ofCallee?`, `CalleeReading.exists_ofCallee?_eq`: what is found is a reading, and of a
  text that has a reading one is found, with arguments at least as long.
-/

namespace CallBridge.Header

open Text

namespace Prototype

variable {cs gap after arguments name : List Char}

/-! ## Arguments -/

theorem not_isBlank_semicolon (after : List Char) :
    ∀ c ∈ (';' :: after).head?, isBlank c = false :=
  forall_head?_cons (by decide) after

theorem endsCall_iff :
    endsCall cs = true ↔
      ∃ gap after, (∀ b ∈ gap, isBlank b = true) ∧ cs = gap ++ ';' :: after := by
  constructor
  · intro h
    obtain ⟨after, hafter⟩ := List.head?_eq_some_iff.mp (beq_iff_eq.mp h)
    obtain ⟨gap, hgap, hsplit⟩ := exists_blanks_append_trimStart cs
    exact ⟨gap, after, hgap, hafter ▸ hsplit⟩
  · rintro ⟨gap, after, hgap, rfl⟩
    rw [endsCall, trimStart, (takeWhile_append_stop hgap (not_isBlank_semicolon after)).2]
    rfl

/-- The arguments end where a call ends. -/
theorem exists_of_argumentsOf? (h : argumentsOf? cs = some arguments) :
    ∃ gap after, (∀ b ∈ gap, isBlank b = true) ∧
      cs = arguments ++ ')' :: (gap ++ ';' :: after) := by
  induction cs generalizing arguments with
  | nil => contradiction
  | cons c cs ih =>
    rw [argumentsOf?] at h
    cases hrest : argumentsOf? cs with
    | some more =>
      rw [hrest] at h
      obtain rfl := Option.some.inj h
      obtain ⟨gap, after, hgap, rfl⟩ := ih hrest
      exact ⟨gap, after, hgap, rfl⟩
    | none =>
      rw [hrest] at h
      simp only at h
      split at h
      · rename_i hend
        obtain rfl := Option.some.inj h
        obtain ⟨gap, after, hgap, hcs⟩ := endsCall_iff.mp hend.2
        exact ⟨gap, after, hgap, by rw [hend.1, hcs]; rfl⟩
      · contradiction

/-- Wherever a call ends, arguments are found that reach at least as far. -/
theorem exists_argumentsOf?_eq (hgap : ∀ b ∈ gap, isBlank b = true) (arguments after : List Char) :
    ∃ longest, argumentsOf? (arguments ++ ')' :: (gap ++ ';' :: after)) = some longest ∧
      arguments.length ≤ longest.length := by
  induction arguments with
  | nil =>
    have hend : endsCall (gap ++ ';' :: after) = true := endsCall_iff.mpr ⟨gap, after, hgap, rfl⟩
    rw [List.nil_append, argumentsOf?]
    cases argumentsOf? (gap ++ ';' :: after) with
    | some more => exact ⟨')' :: more, rfl, Nat.zero_le _⟩
    | none => exact ⟨[], if_pos ⟨rfl, hend⟩, Nat.zero_le _⟩
  | cons c arguments ih =>
    obtain ⟨longest, hlongest, hle⟩ := ih
    rw [List.cons_append, argumentsOf?, hlongest]
    exact ⟨c :: longest, rfl, Nat.succ_le_succ hle⟩

end Prototype

/-! ## From the blanks before `APIENTRY` on -/

/-- A way to read a text as the blanks before `APIENTRY`, that word, a name, a list of arguments
and whatever follows its semicolon. -/
@[ext] structure CalleeReading where
  returnGap : List Char
  nameGap : List Char
  name : List Char
  listGap : List Char
  arguments : List Char
  endGap : List Char
  after : List Char
  returnGap_ne_nil : returnGap ≠ []
  returnGap_blank : ∀ c ∈ returnGap, isBlank c = true
  nameGap_ne_nil : nameGap ≠ []
  nameGap_blank : ∀ c ∈ nameGap, isBlank c = true
  name_ne_nil : name ≠ []
  name_word : ∀ c ∈ name, isWordChar c = true
  listGap_blank : ∀ c ∈ listGap, isBlank c = true
  endGap_blank : ∀ c ∈ endGap, isBlank c = true

namespace CalleeReading

/-- The list of arguments with its closing parenthesis, and all behind it. -/
def listText (k : CalleeReading) : List Char :=
  k.arguments ++ ')' :: (k.endGap ++ ';' :: k.after)

/-- All up to the opening parenthesis. -/
def headText (k : CalleeReading) : List Char :=
  k.returnGap ++ (Prototype.convention ++ (k.nameGap ++ (k.name ++ (k.listGap ++ ['(']))))

/-- The text that is read. -/
def text (k : CalleeReading) : List Char :=
  k.headText ++ k.listText

theorem text_eq (k : CalleeReading) :
    k.text = k.returnGap ++ (Prototype.convention ++
      (k.nameGap ++ (k.name ++ (k.listGap ++ '(' :: k.listText)))) := by
  simp only [text, headText, List.append_assoc, List.singleton_append]

variable {k l : CalleeReading} {cs : List Char}

theorem not_isBlank_convention (cs : List Char) :
    ∀ c ∈ (Prototype.convention ++ cs).head?, isBlank c = false :=
  forall_head?_cons (by decide) _

theorem not_isBlank_name (k : CalleeReading) (cs : List Char) :
    ∀ c ∈ (k.name ++ cs).head?, isBlank c = false := by
  obtain ⟨d, ds, hname⟩ := List.exists_cons_of_ne_nil k.name_ne_nil
  rw [hname]
  exact forall_head?_cons (not_isBlank_of_isWordChar (k.name_word d (hname ▸ List.mem_cons_self))) _

theorem not_isWordChar_listGap (k : CalleeReading) (cs : List Char) :
    ∀ c ∈ (k.listGap ++ '(' :: cs).head?, isWordChar c = false := by
  cases hgap : k.listGap with
  | nil => exact forall_head?_cons Prototype.not_isWordChar_parenthesis _
  | cons d ds =>
    have hblank := k.listGap_blank d (hgap ▸ List.mem_cons_self)
    exact forall_head?_cons (not_isWordChar_of_isBlank hblank) _

theorem not_isBlank_parenthesis (cs : List Char) :
    ∀ c ∈ ('(' :: cs).head?, isBlank c = false :=
  forall_head?_cons (by decide) cs

/-- Only the arguments leave a choice: all before them is read in one way. -/
theorem head_eq_of_text_eq (h : k.text = l.text) :
    k.returnGap = l.returnGap ∧ k.nameGap = l.nameGap ∧ k.name = l.name ∧
      k.listGap = l.listGap ∧ k.listText = l.listText := by
  rw [text_eq, text_eq] at h
  obtain ⟨hreturn, hrest⟩ := eq_of_append_stop k.returnGap_blank (not_isBlank_convention _)
    l.returnGap_blank (not_isBlank_convention _) h
  obtain ⟨hname, hrest⟩ := eq_of_append_stop k.nameGap_blank (k.not_isBlank_name _)
    l.nameGap_blank (l.not_isBlank_name _) (List.append_cancel_left hrest)
  obtain ⟨hword, hrest⟩ := eq_of_append_stop k.name_word (k.not_isWordChar_listGap _)
    l.name_word (l.not_isWordChar_listGap _) hrest
  obtain ⟨hlist, hrest⟩ := eq_of_append_stop k.listGap_blank (not_isBlank_parenthesis _)
    l.listGap_blank (not_isBlank_parenthesis _) hrest
  exact ⟨hreturn, hname, hword, hlist, (List.cons.inj hrest).2⟩

/-- A text is read in one way up to the length of the arguments. -/
theorem eq_of_length_arguments (h : k.text = l.text)
    (hlength : k.arguments.length = l.arguments.length) : k = l := by
  obtain ⟨hreturn, hname, hword, hlist, hrest⟩ := head_eq_of_text_eq h
  obtain ⟨harguments, hrest⟩ := List.append_inj hrest hlength
  obtain ⟨hend, hafter⟩ := eq_of_append_stop k.endGap_blank (Prototype.not_isBlank_semicolon _)
    l.endGap_blank (Prototype.not_isBlank_semicolon _) (List.cons.inj hrest).2
  exact CalleeReading.ext hreturn hname hword hlist harguments hend (List.cons.inj hafter).2

/-- A callee that can be read is found, with arguments at least as long. -/
theorem exists_ofCallee?_eq (k : CalleeReading) :
    ∃ longest, Prototype.ofCallee? k.text = some (k.name, longest) ∧
      k.arguments.length ≤ longest.length := by
  obtain ⟨longest, hlongest, hle⟩ :=
    Prototype.exists_argumentsOf?_eq k.endGap_blank k.arguments k.after
  refine ⟨longest, ?_, hle⟩
  have hstart : trimStart (k.listGap ++ '(' :: k.listText) = '(' :: k.listText :=
    (takeWhile_append_stop k.listGap_blank (not_isBlank_parenthesis _)).2
  have hopening : after? ['('] ('(' :: k.listText) = some k.listText := after?_append ['('] _
  simp only [Prototype.ofCallee?, Option.bind_eq_bind]
  rw [text_eq, afterBlanks?_append k.returnGap_ne_nil k.returnGap_blank (not_isBlank_convention _),
    Option.bind_some, after?_append, Option.bind_some,
    afterBlanks?_append k.nameGap_ne_nil k.nameGap_blank (k.not_isBlank_name _),
    Option.bind_some, run?_append k.name_ne_nil k.name_word (k.not_isWordChar_listGap _),
    Option.bind_some]
  simp only [hstart]
  rw [hopening, Option.bind_some, listText, hlongest, Option.bind_some]

theorem exists_callee (k : CalleeReading) : ∃ callee, Prototype.ofCallee? k.text = some callee := by
  obtain ⟨longest, hlongest, -⟩ := k.exists_ofCallee?_eq
  exact ⟨_, hlongest⟩

theorem length_arguments_le {name arguments : List Char}
    (h : Prototype.ofCallee? k.text = some (name, arguments)) :
    k.arguments.length ≤ arguments.length := by
  obtain ⟨longest, hlongest, hle⟩ := k.exists_ofCallee?_eq
  rw [h] at hlongest
  rwa [(Prod.mk.inj (Option.some.inj hlongest)).2]

end CalleeReading

/-- What is found from the blanks before `APIENTRY` on can be read so. -/
theorem exists_of_ofCallee? {cs name arguments : List Char}
    (h : Prototype.ofCallee? cs = some (name, arguments)) :
    ∃ k : CalleeReading, k.text = cs ∧ k.name = name ∧ k.arguments = arguments := by
  simp only [Prototype.ofCallee?, Option.bind_eq_bind, Option.bind_eq_some_iff] at h
  obtain ⟨cs₁, hfirst, cs₂, hword, cs₃, hsecond, ⟨name, cs₄⟩, hrun, cs₅, hopen, arguments, hlist,
    hresult⟩ := h
  obtain ⟨rfl, rfl⟩ := Prod.mk.inj (Option.some.inj hresult)
  rw [after?_eq_some_iff] at hword hopen
  obtain ⟨returnGap, hreturn_ne, hreturn, -, hcs⟩ := afterBlanks?_eq_some_iff.mp hfirst
  obtain ⟨nameGap, hgap_ne, hgap, -, hcs₂⟩ := afterBlanks?_eq_some_iff.mp hsecond
  obtain ⟨hname_ne, hcs₃, hname⟩ := run?_eq_some hrun
  obtain ⟨listGap, hlistGap, hcs₄⟩ := exists_blanks_append_trimStart cs₄
  obtain ⟨endGap, after, hend, hcs₅⟩ := Prototype.exists_of_argumentsOf? hlist
  refine ⟨⟨returnGap, nameGap, name, listGap, arguments, endGap, after, hreturn_ne, hreturn,
    hgap_ne, hgap, hname_ne, hname, hlistGap, hend⟩, ?_, rfl, rfl⟩
  simp only at hopen
  rw [CalleeReading.text_eq, hcs, hword, hcs₂, hcs₃, hcs₄, hopen, hcs₅]
  rfl

end CallBridge.Header

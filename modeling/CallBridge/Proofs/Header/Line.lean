import CallBridge.Header.Prototype
import CallBridge.Header.Section
import CallBridge.Proofs.Text.Classes
import CallBridge.Proofs.Text.Match

/-!
# Lines of a header

What the two line matchers make of the lines that a header is written with.

* `Prototype.find?_line`: the line of a prototype is read as that prototype;
* `sectionVersion?_headingLine`: a section comment is read as its version;
* `Prototype.find?_eq_none` and `sectionVersion?_eq_none`: a line that holds neither the
  marker nor a section comment is read as nothing.
-/

namespace CallBridge.Header

open Text

variable {cs ds : List Char}

/-! ## Prototypes -/

namespace Prototype

/-- From the blank before `APIENTRY` to the end of the line. -/
def calleeText (p : Prototype) : List Char :=
  ' ' :: (convention ++ ' ' :: (p.name ++ '(' :: (p.arguments ++ [')', ';'])))

/-- The line of a prototype. -/
def line (p : Prototype) : List Char :=
  marker ++ ' ' :: (p.returnType ++ p.calleeText)

/-- The return type stands between single spaces and holds no `APIENTRY`, and the name is an
identifier, which may begin with a digit. -/
structure IsPlain (p : Prototype) : Prop where
  returnType_ne_nil : p.returnType ≠ []
  returnType_trimmed : IsTrimmed p.returnType
  returnType_free : ¬ convention <:+: p.returnType
  name_ne_nil : p.name ≠ []
  name_ident : ∀ c ∈ p.name, isIdentChar c = true

theorem argumentsOf?_append (arguments : List Char) :
    argumentsOf? (arguments ++ [')', ';']) = some arguments := by
  induction arguments with
  | nil => decide
  | cons c arguments ih => rw [List.cons_append, argumentsOf?, ih]

theorem not_isWordChar_parenthesis : isWordChar '(' = false := by decide +kernel

theorem ofCallee?_calleeText {p : Prototype} (h : p.IsPlain) :
    ofCallee? p.calleeText = some (p.name, p.arguments) := by
  have hword : ∀ c ∈ p.name, isWordChar c = true := fun c hc =>
    isWordChar_of_isIdentChar (h.name_ident c hc)
  have hhead : ∀ c ∈ (p.name ++ '(' :: (p.arguments ++ [')', ';'])).head?, isBlank c = false := by
    obtain ⟨d, ds, hname⟩ := List.exists_cons_of_ne_nil h.name_ne_nil
    have hd := h.name_ident d (hname ▸ List.mem_cons_self)
    rw [hname]
    simpa using not_isBlank_of_isIdentChar hd
  have hparenthesis : trimStart ('(' :: (p.arguments ++ [')', ';'])) =
      '(' :: (p.arguments ++ [')', ';']) := trimStart_cons (by decide)
  have hopening : ∀ rest, after? ['('] ('(' :: rest) = some rest := after?_append ['(']
  simp only [ofCallee?, calleeText, Option.bind_eq_bind]
  rw [afterBlanks?_cons_space (by simp [convention]; decide), Option.bind_some,
    after?_append, Option.bind_some, afterBlanks?_cons_space hhead, Option.bind_some,
    run?_append h.name_ne_nil hword (forall_head?_cons not_isWordChar_parenthesis _),
    Option.bind_some]
  simp only [hparenthesis]
  rw [hopening, Option.bind_some, argumentsOf?_append, Option.bind_some]

/-- Blanks and `APIENTRY` are not found before a text that begins with a space, unless they
are found without it. -/
theorem ofCallee?_eq_none (hne : ds ≠ []) (hlast : ∀ c ∈ ds.getLast?, isBlank c = false)
    (hfree : ¬ convention <:+: ds) (cs : List Char) : ofCallee? (ds ++ ' ' :: cs) = none := by
  cases hblanks : afterBlanks? (ds ++ ' ' :: cs) with
  | none => rw [ofCallee?, hblanks]; rfl
  | some rest =>
    cases hconvention : after? convention rest with
    | none => simp [ofCallee?, hblanks, hconvention]
    | some tail =>
      exfalso
      obtain ⟨blanks, -, hall, -, heq⟩ := afterBlanks?_eq_some_iff.mp hblanks
      rw [after?_eq_some_iff.mp hconvention] at heq
      have hspace : ' ' ∉ convention := by decide
      -- The blanks end inside `ds`, so `APIENTRY` begins there and cannot reach its end.
      rcases List.append_eq_append_iff.mp heq with ⟨gap, hgap, -⟩ | ⟨word, hds, hword⟩
      · have hblank := hall _ (hgap ▸ List.mem_append_left _ (List.getLast_mem hne))
        rw [hlast _ (List.getLast?_eq_some_getLast hne)] at hblank
        contradiction
      · rcases List.append_eq_append_iff.mp hword with ⟨more, hmore, -⟩ | ⟨more, hmore, htail⟩
        · exact hfree ⟨blanks, more, by rw [List.append_assoc, ← hmore, hds]⟩
        · cases more with
          | nil => exact hfree ⟨blanks, [], by simp [hmore, hds]⟩
          | cons c more =>
            obtain ⟨rfl, -⟩ := List.cons.inj htail
            exact hspace (hmore ▸ List.mem_append_right _ List.mem_cons_self)

/-- The shortest return type is the one that nothing shorter can stand in for. -/
theorem ofReturn?_append {name arguments rest : List Char}
    (hcallee : ofCallee? rest = some (name, arguments)) (c : Char) (cs : List Char)
    (hearly : ∀ ds, ds ≠ [] → ds <:+ cs → ofCallee? (ds ++ rest) = none) :
    ofReturn? (c :: cs ++ rest) = some ⟨c :: cs, name, arguments⟩ := by
  induction cs generalizing c with
  | nil => rw [List.singleton_append, ofReturn?, hcallee]
  | cons d cs ih =>
    rw [List.cons_append, ofReturn?, hearly (d :: cs) (List.cons_ne_nil _ _) List.suffix_rfl,
      ih d fun ds hne hsuffix => hearly ds hne (hsuffix.trans (List.suffix_cons d cs))]
    rfl

theorem afterMarker?_marker (cs : List Char) :
    afterMarker? (marker ++ ' ' :: cs) = some (' ' :: cs) := by
  have hafter : after? marker ('G' :: (['L', 'A', 'P', 'I'] ++ ' ' :: cs)) = some (' ' :: cs) :=
    after?_append marker (' ' :: cs)
  change afterMarkerFrom? false ('G' :: (['L', 'A', 'P', 'I'] ++ ' ' :: cs)) = _
  rw [afterMarkerFrom?, hafter]
  exact if_pos isBlank_space

/-- The line of a prototype is read as that prototype. -/
theorem find?_line {p : Prototype} (h : p.IsPlain) : find? p.line = some p := by
  obtain ⟨c, cs, hreturn⟩ := List.exists_cons_of_ne_nil h.returnType_ne_nil
  have hhead : ∀ d ∈ (p.returnType ++ p.calleeText).head?, isBlank d = false := by
    have := h.returnType_trimmed.head
    rw [hreturn] at this ⊢
    exact this
  have hearly : ∀ ds, ds ≠ [] → ds <:+ cs → ofCallee? (ds ++ p.calleeText) = none := by
    intro ds hne hsuffix
    have hend : ds <:+ p.returnType := hreturn ▸ hsuffix.trans (List.suffix_cons c cs)
    refine ofCallee?_eq_none hne ?_ (fun hin => h.returnType_free (hin.trans hend.isInfix)) _
    intro d hd
    obtain ⟨front, hfront⟩ := hend
    refine h.returnType_trimmed.last d ?_
    rw [← hfront, List.getLast?_append, hd]
    rfl
  have hofReturn : ofReturn? (p.returnType ++ p.calleeText) = some p := by
    rw [hreturn, ofReturn?_append (ofCallee?_calleeText h) c cs hearly, ← hreturn]
  rw [find?, line, afterMarker?_marker, Option.bind_some, ofMarker?,
    afterBlanks?_cons_space hhead]
  simp only [hofReturn, Option.some_or]

theorem afterMarkerFrom?_eq_none (h : ¬ marker <:+: cs) (inWord : Bool) :
    afterMarkerFrom? inWord cs = none := by
  induction cs generalizing inWord with
  | nil => rfl
  | cons c cs ih =>
    have hrest : ¬ marker <:+: cs := fun hin => h (List.infix_cons hin)
    rw [afterMarkerFrom?]
    cases hafter : after? marker (c :: cs) with
    | none => exact ih hrest _
    | some rest => exact absurd ⟨[], rest, (after?_eq_some_iff.mp hafter).symm⟩ h

/-- A line without the marker declares nothing. -/
theorem find?_eq_none (h : ¬ marker <:+: cs) : find? cs = none := by
  rw [find?, afterMarker?, afterMarkerFrom?_eq_none h, Option.bind_none]

end Prototype

/-! ## Section comments -/

/-- The section comment of a version. -/
def headingLine (major minor : List Char) : List Char :=
  ['/', '*', ' '] ++ major ++ ['.'] ++ minor ++ " functions */".toList

/-- Decimal digits, one or more. -/
structure IsNumber (digits : List Char) : Prop where
  ne_nil : digits ≠ []
  decimal : ∀ c ∈ digits, isDecimal c = true

/-- A section comment: two numbers and the word `functions`, with blanks around the numbers
and before the end. -/
def IsSectionComment (cs : List Char) : Prop :=
  ∃ before major minor between after, IsNumber major ∧ IsNumber minor ∧ between ≠ [] ∧
    (∀ b ∈ before ++ between ++ after, isBlank b = true) ∧
    cs = ['/', '*'] ++ before ++ major ++ ['.'] ++ minor ++ between ++ "functions".toList ++
      after ++ ['*', '/']

theorem run?_isDecimal {digits rest : List Char} {c : Char} (h : IsNumber digits)
    (hc : isDecimal c = false) : run? isDecimal (digits ++ c :: rest) = some (digits, c :: rest) :=
  run?_append h.ne_nil h.decimal (forall_head?_cons hc rest)

/-- A section comment is read as its version. -/
theorem sectionVersion?_headingLine {major minor : List Char} (hmajor : IsNumber major)
    (hminor : IsNumber minor) :
    sectionVersion? (headingLine major minor) = some (major, minor) := by
  have hwords : " functions */".toList = ' ' :: ("functions".toList ++ [' ', '*', '/']) := by
    decide
  have hstart : ∀ rest, trimStart (' ' :: (major ++ rest)) = major ++ rest := by
    intro rest
    obtain ⟨d, ds, rfl⟩ := List.exists_cons_of_ne_nil hmajor.ne_nil
    have hd := not_isBlank_of_isDecimal (hmajor.decimal d List.mem_cons_self)
    rw [trimStart, List.dropWhile_cons_of_pos isBlank_space]
    exact trimStart_cons hd
  have hend : trimStart [' ', '*', '/'] = ['*', '/'] := by decide
  have hopening : ∀ rest, after? ['/', '*'] ('/' :: '*' :: rest) = some rest :=
    after?_append ['/', '*']
  have hpointing : ∀ rest, after? ['.'] ('.' :: rest) = some rest := after?_append ['.']
  have hpoint : isDecimal '.' = false := by decide +kernel
  have hspace : isDecimal ' ' = false := by decide +kernel
  simp only [sectionVersion?, headingLine, hwords, List.append_assoc, List.cons_append,
    List.nil_append, Option.bind_eq_bind]
  rw [hopening, Option.bind_some, hstart,
    run?_isDecimal hmajor hpoint, Option.bind_some]
  simp only
  rw [hpointing, Option.bind_some, run?_isDecimal hminor hspace, Option.bind_some]
  simp only
  have hletter : ∀ d ∈ ("functions".toList ++ [' ', '*', '/']).head?, isBlank d = false := by
    intro d hd
    rw [← Option.some.inj hd]
    rfl
  rw [afterBlanks?_cons_space hletter, Option.bind_some, after?_append,
    Option.bind_some, hend, if_pos rfl]

theorem isNumber_of_run? {digits rest : List Char} (h : run? isDecimal cs = some (digits, rest)) :
    IsNumber digits ∧ cs = digits ++ rest :=
  have ⟨hne, heq, hall⟩ := run?_eq_some h
  ⟨⟨hne, hall⟩, heq⟩

/-- A line that is read as a version is a section comment. -/
theorem isSectionComment_of_sectionVersion? {version : List Char × List Char}
    (h : sectionVersion? cs = some version) : IsSectionComment cs := by
  simp only [sectionVersion?, Option.bind_eq_bind, Option.bind_eq_some_iff] at h
  obtain ⟨cs₁, hopen, ⟨major, cs₂⟩, hmajor, cs₃, hpoint, ⟨minor, cs₄⟩, hminor, cs₅, hblanks, cs₆,
    hword, hclose⟩ := h
  obtain ⟨hmajor, heq₁⟩ := isNumber_of_run? hmajor
  obtain ⟨hminor, heq₃⟩ := isNumber_of_run? hminor
  obtain ⟨between, hne, hbetween, -, heq₄⟩ := afterBlanks?_eq_some_iff.mp hblanks
  rw [after?_eq_some_iff] at hopen hpoint hword
  simp only at hpoint heq₄
  obtain ⟨before, hbefore, heq₀⟩ := exists_blanks_append_trimStart cs₁
  obtain ⟨after, hafter, heq₆⟩ := exists_blanks_append_trimStart cs₆
  split at hclose
  · rename_i hend
    refine ⟨before, major, minor, between, after, hmajor, hminor, hne, ?_, ?_⟩
    · intro b hb
      rcases List.mem_append.mp hb with hfront | hback
      · exact (List.mem_append.mp hfront).elim (hbefore b) (hbetween b)
      · exact hafter b hback
    · rw [hopen, heq₀, heq₁, hpoint, heq₃, heq₄, hword, heq₆, hend]
      simp only [List.append_assoc]
  · contradiction

end CallBridge.Header

import CallBridge.Proofs.Header.Outcome
import CallBridge.Proofs.Header.Reading
import CallBridge.Proofs.Text.Lines

/-!
# Text behind a prototype

What stands behind the semicolon of a prototype is no part of it, and most of it is passed over.
But the arguments reach as far as a call ends: a remark that holds a closing parenthesis and a
semicolon with nothing but blanks between them is drawn into the prototype.

* `HoldsCallEnd` says that a call ends somewhere in a text;
* `Reading.after_cases`: a reading ends at the first semicolon of a line, or a call ends behind it;
* `Reading.IsPreferred.not_holdsCallEnd_after`: no call ends behind the reading that is taken;
* `find?_of_not_holdsCallEnd`, `exists_find?_of_holdsCallEnd`: what becomes of a prototype with text
  behind it;
* `declarations_of_trailing`: the same for a header of this one line;
* `declarations_remark_with_call`: a remark that is drawn into the arguments.
-/

namespace CallBridge.Header

open Text

/-- A call ends in the text: it holds a closing parenthesis, blanks and a semicolon. -/
def HoldsCallEnd (cs : List Char) : Prop :=
  ∃ more gap after, (∀ b ∈ gap, isBlank b = true) ∧ cs = more ++ ')' :: (gap ++ ';' :: after)

variable {cs front tail raw : List Char} {p : Prototype} {d : Declaration}

theorem holdsCallEnd_iff : HoldsCallEnd cs ↔ (Prototype.argumentsOf? cs).isSome = true := by
  rw [Option.isSome_iff_exists]
  constructor
  · rintro ⟨more, gap, after, hgap, rfl⟩
    obtain ⟨longest, hlongest, -⟩ := Prototype.exists_argumentsOf?_eq hgap more after
    exact ⟨longest, hlongest⟩
  · rintro ⟨arguments, harguments⟩
    obtain ⟨gap, after, hgap, hcs⟩ := Prototype.exists_of_argumentsOf? harguments
    exact ⟨arguments, gap, after, hgap, hcs⟩

instance (cs : List Char) : Decidable (HoldsCallEnd cs) :=
  decidable_of_iff _ holdsCallEnd_iff.symm

theorem holdsCallEnd_trimEnd_iff : HoldsCallEnd (trimEnd cs) ↔ HoldsCallEnd cs := by
  constructor
  · rintro ⟨more, gap, after, hgap, htrim⟩
    obtain ⟨blanks, -, hcs⟩ := exists_trimEnd_append_blanks cs
    refine ⟨more, gap, after ++ blanks, hgap, ?_⟩
    rw [hcs, htrim]
    simp only [List.append_assoc, List.cons_append]
  · rintro ⟨more, gap, after, hgap, rfl⟩
    refine ⟨more, gap, trimEnd after, hgap, ?_⟩
    have hsemicolon := trimEnd_append_cons (c := ';') (by decide) (more ++ ')' :: gap) after
    simpa only [List.append_assoc, List.cons_append] using hsemicolon

theorem semicolon_not_mem_blank (h : ∀ c ∈ cs, isBlank c = true) : ';' ∉ cs := fun hmem =>
  absurd (h _ hmem) (by decide)

/-! ## Readings with text behind them -/

namespace Reading

variable {r s : Reading}

/-- The reading with another text behind its semicolon. -/
def withAfter (r : Reading) (after : List Char) : Reading :=
  { r with after := after }

/-- The reading with arguments that reach further, to another end of a call. -/
def withArguments (r : Reading) (arguments endGap after : List Char)
    (endGap_blank : ∀ c ∈ endGap, isBlank c = true) : Reading :=
  { r with arguments := arguments, endGap := endGap, after := after, endGap_blank := endGap_blank }

/-- All up to the semicolon. -/
def callText (r : Reading) : List Char :=
  r.beforeArguments ++ (r.arguments ++ ')' :: r.endGap)

theorem text_eq_callText (r : Reading) : r.text = r.callText ++ ';' :: r.after := by
  rw [text_eq, callText]
  simp only [List.append_assoc, List.cons_append]

theorem text_withAfter (r : Reading) (after : List Char) :
    (r.withAfter after).text = r.callText ++ ';' :: after :=
  text_eq_callText (r.withAfter after)

theorem semicolon_not_mem_headText (k : CalleeReading) : ';' ∉ k.headText := by
  have hname : ';' ∉ k.name := fun hmem => absurd (k.name_word _ hmem) (by decide +kernel)
  have hconvention : ';' ∉ Prototype.convention := by decide
  simp [CalleeReading.headText, hname, hconvention, semicolon_not_mem_blank k.returnGap_blank,
    semicolon_not_mem_blank k.nameGap_blank, semicolon_not_mem_blank k.listGap_blank]

/-- A reading of a line ends at the first semicolon, or a call ends behind that. -/
theorem after_cases (hfree : ';' ∉ front) (h : r.text = front ++ ';' :: tail) :
    r.callText = front ∧ r.after = tail ∨
      HoldsCallEnd tail ∧
        ∃ more, r.beforeArguments ++ r.arguments = front ++ ';' :: more := by
  rw [text_eq_callText] at h
  rcases List.append_eq_append_iff.mp h with ⟨gap, hfront, htail⟩ | ⟨more, hcall, htail⟩
  · cases gap with
    | nil => exact .inl ⟨by simpa using hfront.symm, (List.cons.inj htail).2⟩
    | cons c gap =>
      obtain rfl := (List.cons.inj htail).1
      exact absurd (hfront ▸ List.mem_append_right _ List.mem_cons_self) hfree
  · cases more with
    | nil => exact .inl ⟨by simpa using hcall, (List.cons.inj htail).2.symm⟩
    | cons c more =>
      obtain rfl : ';' = c := (List.cons.inj htail).1
      have htail : tail = more ++ ';' :: r.after := (List.cons.inj htail).2
      -- The first semicolon stands inside the call, and there it can only stand before the
      -- closing parenthesis.
      rw [callText, ← List.append_assoc] at hcall
      rcases List.append_eq_append_iff.mp hcall with ⟨inner, hinner, hend⟩ | ⟨inner, hinner, hend⟩
      · have hmem : ';' ∈ ')' :: r.endGap := hend ▸ List.mem_append_right _ List.mem_cons_self
        rcases List.mem_cons.mp hmem with hparenthesis | hblank
        · exact absurd hparenthesis (by decide)
        · exact absurd hblank (semicolon_not_mem_blank r.endGap_blank)
      · cases inner with
        | nil => exact absurd (List.cons.inj hend).1 (by decide)
        | cons b inner =>
          have hmore : more = inner ++ ')' :: r.endGap := (List.cons.inj hend).2
          refine .inr ⟨⟨inner, r.endGap, r.after, r.endGap_blank, ?_⟩, inner, ?_⟩
          · rw [htail, hmore]
            simp only [List.append_assoc, List.cons_append]
          · rw [hinner, (List.cons.inj hend).1]

/-- Where no call ends behind the first semicolon of a line, every reading ends there. -/
theorem ends_of_not_holdsCallEnd (hfree : ';' ∉ front) (hclosed : ¬ HoldsCallEnd tail)
    (h : r.text = front ++ ';' :: tail) : r.callText = front ∧ r.after = tail := by
  rcases after_cases hfree h with hends | ⟨hholds, -⟩
  · exact hends
  · exact absurd hholds hclosed

/-- Behind a preferred reading no call ends: arguments that reach further would be longer. -/
theorem IsPreferred.not_holdsCallEnd_after (h : s.IsPreferred) : ¬ HoldsCallEnd s.after := by
  rintro ⟨more, gap, after, hgap, hafter⟩
  let t := s.withArguments (s.arguments ++ ')' :: (s.endGap ++ ';' :: more)) gap after hgap
  have htext : t.text = s.text := by
    rw [text_eq t, text_eq s, hafter]
    show s.beforeArguments ++ ((s.arguments ++ ')' :: (s.endGap ++ ';' :: more)) ++ _) = _
    simp only [List.append_assoc, List.cons_append]
    rfl
  have hlength : s.arguments.length < t.arguments.length := by
    show s.arguments.length < (s.arguments ++ ')' :: (s.endGap ++ ';' :: more)).length
    simp
  rcases h t htext with heq | hworse
  · rw [heq] at hlength
    exact absurd hlength (Nat.lt_irrefl _)
  · have hbetter : t.Outranks s := .inr ⟨rfl, .inr ⟨rfl, .inr ⟨rfl, hlength⟩⟩⟩
    exact absurd hbetter hworse.asymm

/-- If a line has a reading with its marker before the first semicolon, so has the preferred
one. -/
theorem IsPreferred.semicolon_not_mem_before (h : s.IsPreferred) (hfree : ';' ∉ front)
    (hs : s.text = front ++ ';' :: tail) (hr : r.text = s.text)
    (hearly : r.before.length ≤ front.length) : ';' ∉ s.before := by
  intro hmem
  have hlate : front.length < s.before.length := by
    by_contra hshort
    have hbefore : s.before <+: s.text := ⟨_, rfl⟩
    have hfront : front <+: s.text := ⟨_, hs.symm⟩
    have hstart : s.before <+: front :=
      List.prefix_of_prefix_length_le hbefore hfront (Nat.le_of_not_lt hshort)
    exact hfree (hstart.subset hmem)
  have hbetter : r.Outranks s := .inl (Nat.lt_of_le_of_lt hearly hlate)
  rcases h r hr with heq | hworse
  · rw [heq] at hbetter
    exact absurd hbetter hbetter.asymm
  · exact absurd hbetter hworse.asymm

end Reading

theorem not_holdsCallEnd_nil : ¬ HoldsCallEnd [] := by decide

/-- A prototype that ends in the one semicolon of its line holds none. -/
theorem semicolon_not_mem_of_find? (hfree : ';' ∉ front)
    (h : Prototype.find? (front ++ [';']) = some p) : ';' ∉ p.returnType ∧ ';' ∉ p.arguments := by
  obtain ⟨r, hr, -, rfl⟩ := find?_eq_some_iff.mp h
  obtain ⟨rfl, -⟩ := Reading.ends_of_not_holdsCallEnd hfree not_holdsCallEnd_nil hr
  simp only [Reading.callText, Reading.beforeArguments, List.mem_append, not_or] at hfree
  exact ⟨hfree.1.2.2.2.1, hfree.2.1⟩

/-- Text in which no call ends leaves the prototype before it as it is. -/
theorem find?_of_not_holdsCallEnd (hfree : ';' ∉ front) (hclosed : ¬ HoldsCallEnd tail)
    (h : Prototype.find? (front ++ [';']) = some p) :
    Prototype.find? (front ++ ';' :: tail) = some p := by
  obtain ⟨r, hr, hpreferred, rfl⟩ := find?_eq_some_iff.mp h
  obtain ⟨rfl, -⟩ := Reading.ends_of_not_holdsCallEnd hfree not_holdsCallEnd_nil hr
  refine find?_eq_some_iff.mpr ⟨r.withAfter tail, r.text_withAfter tail, fun s hs => ?_, rfl⟩
  rw [Reading.text_withAfter] at hs
  obtain ⟨hcall, hafter⟩ := Reading.ends_of_not_holdsCallEnd hfree hclosed hs
  -- Without the tail, the other reading is one of the line that stands alone.
  have halone : (s.withAfter []).text = r.text := by rw [Reading.text_withAfter, hcall, hr]
  rcases hpreferred (s.withAfter []) halone with heq | hout
  · refine .inl ?_
    rw [← heq, ← hafter]
    rfl
  · exact .inr hout

/-- Text in which a call ends is drawn into the prototype before it: the return type or the
arguments then reach over the semicolon. -/
theorem exists_find?_of_holdsCallEnd (hfree : ';' ∉ front) (hholds : HoldsCallEnd tail)
    (h : Prototype.find? (front ++ [';']) = some p) :
    ∃ q, Prototype.find? (front ++ ';' :: tail) = some q ∧
      (';' ∈ q.returnType ∨ ';' ∈ q.arguments) := by
  obtain ⟨r, hr, -, rfl⟩ := find?_eq_some_iff.mp h
  obtain ⟨rfl, -⟩ := Reading.ends_of_not_holdsCallEnd hfree not_holdsCallEnd_nil hr
  have hlonger := r.text_withAfter tail
  obtain ⟨q, hq⟩ := (r.withAfter tail).exists_find?_eq
  rw [hlonger] at hq
  obtain ⟨s, hs, hpreferred, rfl⟩ := find?_eq_some_iff.mp hq
  refine ⟨s.prototype, hq, ?_⟩
  rcases Reading.after_cases hfree hs with ⟨-, hafter⟩ | ⟨-, more, hmore⟩
  · exact absurd (hafter ▸ hholds) hpreferred.not_holdsCallEnd_after
  · have hearly : (r.withAfter tail).before.length ≤ r.callText.length := by
      simp [Reading.callText, Reading.beforeArguments, Reading.withAfter]
    have hmem : ';' ∈ s.beforeArguments ++ s.arguments :=
      hmore ▸ List.mem_append_right _ List.mem_cons_self
    have hmarker : ';' ∉ Prototype.marker := by decide
    have hbefore := hpreferred.semicolon_not_mem_before hfree hs (hlonger.trans hs.symm) hearly
    have hgap := semicolon_not_mem_blank s.markerGap_blank
    have hhead := Reading.semicolon_not_mem_headText s.toCalleeReading
    have hparts : ';' ∈ s.returnType ∨ ';' ∈ s.arguments := by
      simpa [Reading.beforeArguments, hbefore, hmarker, hgap, hhead] using hmem
    exact hparts

/-! ## Lines with text behind a prototype -/

theorem semicolon_not_mem_sectionComment (h : IsSectionComment cs) : ';' ∉ cs := by
  obtain ⟨before, major, minor, between, after, hmajor, hminor, -, hblank, rfl⟩ := h
  have hblanks := semicolon_not_mem_blank hblank
  have hdigits : ∀ digits, IsNumber digits → ';' ∉ digits := fun digits hdigits hmem =>
    absurd (hdigits.decimal _ hmem) (by decide +kernel)
  have hword : ';' ∉ "functions".toList := by decide
  simp only [List.mem_append, not_or] at hblanks ⊢
  exact ⟨⟨⟨⟨⟨⟨⟨⟨by decide, hblanks.1.1⟩, hdigits _ hmajor⟩, by decide⟩, hdigits _ hminor⟩,
    hblanks.1.2⟩, hword⟩, hblanks.2⟩, by decide⟩

/-- A line with a semicolon is no section comment. -/
theorem lineKind_eq_declares_iff (hmem : ';' ∈ trim raw) :
    lineKind raw = .declares p ↔ Prototype.find? (trim raw) = some p := by
  have hsection : sectionFeature? (trim raw) = none := by
    refine Option.map_eq_none_iff.mpr (Option.eq_none_iff_forall_ne_some.mpr fun version hversion => ?_)
    exact semicolon_not_mem_sectionComment (isSectionComment_of_sectionVersion? hversion) hmem
  rw [lineKind, hsection]
  cases Prototype.find? (trim raw) with
  | none => simp
  | some q => exact ⟨fun h => congrArg some (LineKind.declares.inj h), fun h => by cases h; rfl⟩

theorem trim_append_semicolon (front tail : List Char) :
    trim (front ++ ';' :: tail) = trimStart front ++ ';' :: trimEnd tail :=
  trim_append_cons (by decide) front tail

theorem semicolon_not_mem_trimStart (hfree : ';' ∉ front) : ';' ∉ trimStart front := fun hmem =>
  hfree ((List.dropWhile_suffix isBlank).subset hmem)

theorem lineKind_append_semicolon_iff :
    lineKind (front ++ ';' :: tail) = .declares p ↔
      Prototype.find? (trimStart front ++ ';' :: trimEnd tail) = some p := by
  rw [lineKind_eq_declares_iff, trim_append_semicolon]
  rw [trim_append_semicolon]
  exact List.mem_append_right _ List.mem_cons_self

/-- A header of one line declares what the prototype on that line comes to. -/
theorem declarations_line_eq_ok_iff (hne : raw ≠ []) (hline : '\n' ∉ raw) :
    declarations (String.ofList raw) = .ok [d] ↔
      ∃ p, lineKind raw = .declares p ∧ p.Declares initialFeature d := by
  rw [declarations, String.toList_ofList, lines_of_no_lineFeed hne hline, declarationsFrom]
  cases lineKind raw with
  | heading feature => simp [declarationsFrom]
  | other => simp [declarationsFrom]
  | declares p =>
    have hplace : Place.declaration ⟨[], raw, p⟩ = .ok d ↔ p.Declares initialFeature d :=
      Place.declaration_eq_ok_iff
    constructor
    · intro h
      obtain ⟨e, he, hrest⟩ := bind_eq_ok_iff.mp h
      obtain rfl := (List.cons.inj (Except.ok.inj hrest)).1
      exact ⟨p, rfl, hplace.mp he⟩
    · rintro ⟨q, hq, hdeclares⟩
      obtain rfl := LineKind.declares.inj hq
      show (Place.declaration ⟨[], raw, p⟩ >>= _) = _
      rw [hplace.mpr hdeclares]
      rfl

/-- Text behind a prototype that ends in the one semicolon of its line is passed over, unless a
call ends in it.

* The prototype stays as it is if and only if no call ends in the text.
* The declaration then stays as it is, too.
* Otherwise the return type or the arguments reach over the semicolon. -/
theorem declarations_of_trailing (hfree : ';' ∉ front) (hline : '\n' ∉ front ++ tail)
    (halone : declarations (String.ofList (front ++ [';'])) = .ok [d]) :
    ∃ p, lineKind (front ++ [';']) = .declares p ∧
      (lineKind (front ++ ';' :: tail) = .declares p ↔ ¬ HoldsCallEnd tail) ∧
      (¬ HoldsCallEnd tail →
        declarations (String.ofList (front ++ ';' :: tail)) = .ok [d]) ∧
      (HoldsCallEnd tail → ∃ q, lineKind (front ++ ';' :: tail) = .declares q ∧
        (';' ∈ q.returnType ∨ ';' ∈ q.arguments)) := by
  have hlineAlone : '\n' ∉ front ++ [';'] := by
    simp only [List.mem_append, not_or] at hline ⊢
    exact ⟨hline.1, by decide⟩
  have hlineLonger : '\n' ∉ front ++ ';' :: tail := by
    simp only [List.mem_append, List.mem_cons, not_or] at hline ⊢
    exact ⟨hline.1, by decide, hline.2⟩
  have hne : ∀ rest, front ++ ';' :: rest ≠ [] := fun rest =>
    List.append_ne_nil_of_right_ne_nil front (List.cons_ne_nil _ rest)
  obtain ⟨p, hp, hdeclares⟩ := (declarations_line_eq_ok_iff (hne []) hlineAlone).mp halone
  have hfind : Prototype.find? (trimStart front ++ [';']) = some p :=
    lineKind_append_semicolon_iff.mp hp
  have hfree := semicolon_not_mem_trimStart hfree
  have hkeeps : ¬ HoldsCallEnd tail → lineKind (front ++ ';' :: tail) = .declares p := by
    intro hclosed
    rw [← holdsCallEnd_trimEnd_iff] at hclosed
    exact lineKind_append_semicolon_iff.mpr (find?_of_not_holdsCallEnd hfree hclosed hfind)
  have hdrawn : HoldsCallEnd tail → ∃ q, lineKind (front ++ ';' :: tail) = .declares q ∧
      (';' ∈ q.returnType ∨ ';' ∈ q.arguments) := by
    intro hholds
    rw [← holdsCallEnd_trimEnd_iff] at hholds
    obtain ⟨q, hq, hmem⟩ := exists_find?_of_holdsCallEnd hfree hholds hfind
    exact ⟨q, lineKind_append_semicolon_iff.mpr hq, hmem⟩
  refine ⟨p, hp, ⟨fun hsame hholds => ?_, hkeeps⟩, fun hclosed => ?_, hdrawn⟩
  · obtain ⟨q, hq, hmem⟩ := hdrawn hholds
    obtain rfl := LineKind.declares.inj (hsame.symm.trans hq)
    obtain ⟨htype, harguments⟩ := semicolon_not_mem_of_find? hfree hfind
    exact hmem.elim htype harguments
  · exact (declarations_line_eq_ok_iff (hne tail) hlineLonger).mpr ⟨p, hkeeps hclosed, hdeclares⟩

/-- A remark without the end of a call. -/
theorem declarations_remark_without_call :
    declarations "GLAPI void APIENTRY glFoo(GLint a); /* glBar(1) is older */" =
      .ok [⟨⟨"glFoo", "void", .list [⟨"GLint", "a"⟩]⟩, "GL_VERSION_1_0"⟩] := by
  have hfree : ';' ∉ "GLAPI void APIENTRY glFoo(GLint a)".toList := by decide
  have hline : '\n' ∉ "GLAPI void APIENTRY glFoo(GLint a)".toList ++
      " /* glBar(1) is older */".toList := by decide
  have halone : declarations (String.ofList ("GLAPI void APIENTRY glFoo(GLint a)".toList ++ [';'])) =
      .ok [⟨⟨"glFoo", "void", .list [⟨"GLint", "a"⟩]⟩, "GL_VERSION_1_0"⟩] := by
    decide +kernel
  obtain ⟨-, -, -, hkeeps, -⟩ := declarations_of_trailing hfree hline halone
  exact hkeeps (by decide)

/-- A remark with the end of a call is drawn into the arguments. -/
theorem declarations_remark_with_call :
    declarations "GLAPI void APIENTRY glFoo(GLint a);" =
      .ok [⟨⟨"glFoo", "void", .list [⟨"GLint", "a"⟩]⟩, "GL_VERSION_1_0"⟩] ∧
    declarations "GLAPI void APIENTRY glFoo(GLint a); /* see glBar(); */" =
      .ok [⟨⟨"glFoo", "void", .list [⟨"GLint a); / * see glBar(", "p0"⟩]⟩, "GL_VERSION_1_0"⟩] := by
  decide +kernel

end CallBridge.Header

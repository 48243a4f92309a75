import CallBridge.Header.Reader
import CallBridge.Proofs.Header.ArgumentList
import CallBridge.Proofs.Header.Line
import CallBridge.Proofs.Text.Lines

/-!
# Header round trip

A header that is written from declarations is read back as those declarations.

* `IsDeclarable` says which declarations a header can state;
* `Rendering` writes declarations as lines: prototypes under section comments, and any other
  lines between them;
* `declarations_of_rendering` reads them back, in order and without a fault.

What a line says depends on its trimmed form alone (`lineKind_of_trim`), so the three kinds of
lines are read one by one (`lineKind_prototypeLine`, `lineKind_headingLine`,
`lineKind_of_isFurther`), and the round trip is an induction over the rendering, in which the
feature of the last section comment is the one the reader has stored.
-/

namespace CallBridge.Header

open Text

/-- A declaration that a header can state. -/
structure IsDeclarable (d : Declaration) : Prop where
  feature : ∃ major minor, IsNumber major ∧ IsNumber minor ∧ d.feature = versionFeature major minor
  name_ne_nil : d.name.toList ≠ []
  name_ident : ∀ c ∈ d.name.toList, isIdentChar c = true
  returnType : IsTypeText d.signature.returnType.toList
  returnType_free : ¬ Prototype.convention <:+: d.signature.returnType.toList
  params_ne_nil : d.signature.params ≠ .list []
  params : ∀ p ∈ d.signature.params.toList, IsArgument p

/-- The line that declares a function. -/
def prototypeLine (d : Declaration) : List Char :=
  ("GLAPI " ++ d.signature.returnType ++ " APIENTRY " ++ d.name ++ "(" ++
    Signature.paramText d.signature.params ++ ");").toList

/-- A line of no consequence: it holds no `GLAPI`, and it is no section comment with blanks
around it. -/
structure IsFurther (line : List Char) : Prop where
  lineFeed_free : '\n' ∉ line
  marker_free : ¬ Prototype.marker <:+: line
  no_section : ¬ IsSectionComment (trim line)

/-- Declarations written as lines under the feature `current`, if there is one.  Every
prototype stands under its own feature, and a section comment sets the feature of what
follows. -/
inductive Rendering : Option String → List Declaration → List (List Char) → Prop where
  | nil (current : Option String) : Rendering current [] []
  | further {current : Option String} {ds : List Declaration} {ls : List (List Char)}
      {line : List Char} (hline : IsFurther line) (rest : Rendering current ds ls) :
      Rendering current ds (line :: ls)
  | heading {current : Option String} {ds : List Declaration} {ls : List (List Char)}
      {major minor : List Char} (hmajor : IsNumber major) (hminor : IsNumber minor)
      (rest : Rendering (some (versionFeature major minor)) ds ls) :
      Rendering current ds (headingLine major minor :: ls)
  | declares {ds : List Declaration} {ls : List (List Char)} (d : Declaration)
      (rest : Rendering (some d.feature) ds ls) :
      Rendering (some d.feature) (d :: ds) (prototypeLine d :: ls)

variable {d : Declaration} {ds : List Declaration} {ls : List (List Char)} {raw line : List Char}

/-- A header can state any list of such declarations. -/
theorem Rendering.exists (h : ∀ d ∈ ds, IsDeclarable d) (current : Option String) :
    ∃ ls, Rendering current ds ls := by
  induction ds generalizing current with
  | nil => exact ⟨[], .nil current⟩
  | cons d ds ih =>
    obtain ⟨hd, hds⟩ := List.forall_mem_cons.mp h
    obtain ⟨ls, hls⟩ := ih hds (some d.feature)
    obtain ⟨major, minor, hmajor, hminor, hfeature⟩ := hd.feature
    exact ⟨_, .heading hmajor hminor (hfeature ▸ Rendering.declares d hls)⟩

/-! ## One line -/

/-- The prototype that declares a function. -/
def prototypeOf (d : Declaration) : Prototype where
  returnType := d.signature.returnType.toList
  name := d.name.toList
  arguments := (Signature.paramText d.signature.params).toList

theorem prototypeLine_eq (d : Declaration) : prototypeLine d = (prototypeOf d).line := by
  simp [prototypeLine, Prototype.line, Prototype.calleeText, prototypeOf, Prototype.marker,
    Prototype.convention]

theorem isPlain_prototypeOf (h : IsDeclarable d) : (prototypeOf d).IsPlain where
  returnType_ne_nil := h.returnType.ne_nil
  returnType_trimmed := h.returnType.isTrimmed
  returnType_free := h.returnType_free
  name_ne_nil := h.name_ne_nil
  name_ident := h.name_ident

theorem trim_line (p : Prototype) : trim p.line = p.line := by
  have hline : p.line = 'G' :: (['L', 'A', 'P', 'I', ' '] ++ p.returnType ++ [' '] ++
      Prototype.convention ++ [' '] ++ p.name ++ ['('] ++ p.arguments ++ [')'] ++ [';']) := by
    simp [Prototype.line, Prototype.calleeText, Prototype.marker]
  rw [hline]
  exact trim_eq_self (isTrimmed_cons_concat (by decide) (by decide) _)

theorem lineKind_of_trim (h : trim raw = trim line) : lineKind raw = lineKind line := by
  rw [lineKind, h, ← lineKind]

theorem lineKind_prototypeLine (h : IsDeclarable d) :
    lineKind (prototypeLine d) = .declares (prototypeOf d) := by
  have hsection : sectionFeature? (prototypeOf d).line = none := rfl
  rw [prototypeLine_eq, lineKind, trim_line, hsection,
    Prototype.find?_line (isPlain_prototypeOf h)]

theorem lineKind_headingLine {major minor : List Char} (hmajor : IsNumber major)
    (hminor : IsNumber minor) :
    lineKind (headingLine major minor) = .heading (versionFeature major minor) := by
  have htrim : trim (headingLine major minor) = headingLine major minor := by
    have hline : headingLine major minor =
        '/' :: (['*', ' '] ++ major ++ ['.'] ++ minor ++ " functions *".toList ++ ['/']) := by
      simp [headingLine]
    rw [hline]
    exact trim_eq_self (isTrimmed_cons_concat (by decide) (by decide) _)
  rw [lineKind, htrim, sectionFeature?, sectionVersion?_headingLine hmajor hminor]
  rfl

theorem lineKind_of_isFurther (h : IsFurther line) : lineKind line = .other := by
  have hsection : sectionFeature? (trim line) = none := by
    cases hversion : sectionVersion? (trim line) with
    | none => rw [sectionFeature?, hversion]; rfl
    | some version => exact absurd (isSectionComment_of_sectionVersion? hversion) h.no_section
  have hmarker : ¬ Prototype.marker <:+: trim line := fun hin =>
    h.marker_free (hin.trans (isInfix_trim line))
  rw [lineKind, hsection, Prototype.find?_eq_none hmarker]

theorem declaration_prototypeOf (h : IsDeclarable d) (number : Nat) (raw : List Char) :
    declaration d.feature number raw (prototypeOf d) = .ok d := by
  have hname : trimmed d.name = d.name := by
    rw [trimmed, trim_eq_self, String.ofList_toList]
    exact ⟨fun c hc => not_isBlank_of_isIdentChar (h.name_ident c (List.mem_of_mem_head? hc)),
      fun c hc => not_isBlank_of_isIdentChar (h.name_ident c (List.mem_of_mem_getLast? hc))⟩
  have hreturn : normalizeType d.signature.returnType = d.signature.returnType := by
    rw [normalizeType, h.returnType.normal, String.ofList_toList]
  have hparams : paramList (prototypeOf d).arguments = .ok d.signature.params :=
    paramList_paramText h.params_ne_nil h.params
  rw [declaration, hparams]
  simp only [prototypeOf, String.ofList_toList, Signature.normal, hname, hreturn]
  rfl

/-! ## All lines -/

theorem lineFeed_not_mem_paramText {params : ParamList} (h : ∀ p ∈ params.toList, IsArgument p) :
    '\n' ∉ (Signature.paramText params).toList := by
  match params with
  | .void => decide
  | .list [] => decide
  | .list (p :: ps) =>
    rw [toList_paramText]
    intro hmem
    rcases mem_joinWith hmem with hseparator | ⟨piece, hpiece, hin⟩
    · exact absurd hseparator (by decide)
    · obtain ⟨q, hq, rfl⟩ := List.mem_map.mp hpiece
      have htype : '\n' ∉ q.type.toList := fun hc =>
        absurd ((h q hq).typeText.eq_space_of_mem hc (by decide)) (by decide)
      exact not_mem_argumentText (h q hq) htype (by decide) (by decide) hin

theorem lineFeed_not_mem_prototypeLine (h : IsDeclarable d) : '\n' ∉ prototypeLine d := by
  have hreturn : '\n' ∉ d.signature.returnType.toList := fun hc =>
    absurd (h.returnType.eq_space_of_mem hc (by decide)) (by decide)
  have hname : '\n' ∉ d.name.toList := fun hc =>
    absurd (h.name_ident _ hc) (by decide)
  have hparams := lineFeed_not_mem_paramText h.params
  simp [prototypeLine, hreturn, hname, hparams]

theorem lineFeed_not_mem_headingLine {major minor : List Char} (hmajor : IsNumber major)
    (hminor : IsNumber minor) : '\n' ∉ headingLine major minor := by
  have hnumber : ∀ digits, IsNumber digits → '\n' ∉ digits := by
    intro digits hdigits hc
    have hblank := not_isBlank_of_isDecimal (hdigits.decimal _ hc)
    exact absurd hblank (by decide)
  simp [headingLine, hnumber major hmajor, hnumber minor hminor]

/-- No line of a rendering holds a line feed. -/
theorem Rendering.lineFeed_free {current : Option String} (h : Rendering current ds ls)
    (hds : ∀ d ∈ ds, IsDeclarable d) : ∀ line ∈ ls, '\n' ∉ line := by
  induction h with
  | nil => exact List.forall_mem_nil _
  | further hline _ ih => exact List.forall_mem_cons.mpr ⟨hline.lineFeed_free, ih hds⟩
  | heading hmajor hminor _ ih =>
    exact List.forall_mem_cons.mpr ⟨lineFeed_not_mem_headingLine hmajor hminor, ih hds⟩
  | declares d _ ih =>
    obtain ⟨hd, hrest⟩ := List.forall_mem_cons.mp hds
    exact List.forall_mem_cons.mpr ⟨lineFeed_not_mem_prototypeLine hd, ih hrest⟩

/-- The lines of a rendering are read as its declarations, by a reader that has stored the
feature they stand under. -/
theorem declarationsFrom_of_rendering {current : Option String} (h : Rendering current ds ls)
    (hds : ∀ d ∈ ds, IsDeclarable d) {feature : String}
    (hfeature : ∀ f ∈ current, feature = f) (number : Nat) {raws : List (List Char)}
    (hraws : List.Forall₂ (fun raw line => trim raw = trim line) raws ls) :
    declarationsFrom feature number raws = .ok ds := by
  induction h generalizing feature number raws with
  | nil =>
    cases hraws
    rfl
  | further hline _ ih =>
    cases hraws with
    | cons hraw hrest =>
      rw [declarationsFrom, lineKind_of_trim hraw, lineKind_of_isFurther hline]
      exact ih hds hfeature (number + 1) hrest
  | heading hmajor hminor _ ih =>
    cases hraws with
    | cons hraw hrest =>
      rw [declarationsFrom, lineKind_of_trim hraw, lineKind_headingLine hmajor hminor]
      exact ih hds (fun f hf => Option.some.inj hf) (number + 1) hrest
  | declares d _ ih =>
    obtain ⟨hd, hrestds⟩ := List.forall_mem_cons.mp hds
    cases hraws with
    | cons hraw hrest =>
      rw [declarationsFrom, lineKind_of_trim hraw, lineKind_prototypeLine hd,
        hfeature d.feature rfl]
      simp only [declaration_prototypeOf hd, ih hrestds (fun f hf => Option.some.inj hf) _ hrest]
      rfl

/-- A header written from declarations is read back as those declarations. -/
theorem declarations_of_rendering {text : String} (hds : ∀ d ∈ ds, IsDeclarable d)
    (hrendering : Rendering none ds ls) (htext : Layout ls text.toList) :
    declarations text = .ok ds :=
  declarationsFrom_of_rendering hrendering hds (fun _ hf => nomatch hf) 1
    (trim_lines_of_layout htext (hrendering.lineFeed_free hds))

/-! ## An instance -/

/-- A function with a pointer to pointers among its arguments and a star at the end of its
return type. -/
def tableDeclaration : Declaration :=
  ⟨⟨"glGetTable", "const GLubyte *",
    .list [⟨"GLenum", "target"⟩, ⟨"const void *const *", "table"⟩]⟩, "GL_VERSION_1_3"⟩

/-- A function without arguments. -/
def flushDeclaration : Declaration :=
  ⟨⟨"glFlush", "void", .void⟩, "GL_VERSION_2_0"⟩

/-- Both declarations as a header, with a line between them that says nothing. -/
def sampleHeader : String :=
  "/* 1.3 functions */" ++ "\r\n" ++
  "GLAPI const GLubyte * APIENTRY " ++ "glGetTable(GLenum target, const void *const *table);" ++
  "\n" ++
  "extern \"C\"" ++ "\n" ++
  "/* 2.0 functions */" ++ "\n" ++
  "GLAPI void APIENTRY glFlush(void);"

/-- The lines of the sample header. -/
def sampleLines : List (List Char) :=
  [headingLine ['1'] ['3'], prototypeLine tableDeclaration, "extern \"C\"".toList,
    headingLine ['2'] ['0'], prototypeLine flushDeclaration]

theorem layout_sampleHeader : Layout sampleLines sampleHeader.toList := by
  have hheading : headingLine ['1'] ['3'] = "/* 1.3 functions */".toList := by decide +kernel
  have htable : prototypeLine tableDeclaration = "GLAPI const GLubyte * APIENTRY ".toList ++
      "glGetTable(GLenum target, const void *const *table);".toList := by
    decide +kernel
  have hnext : headingLine ['2'] ['0'] = "/* 2.0 functions */".toList := by decide +kernel
  have hflush : prototypeLine flushDeclaration = "GLAPI void APIENTRY glFlush(void);".toList := by
    decide +kernel
  have htext : sampleHeader.toList =
      headingLine ['1'] ['3'] ++ '\r' :: '\n' :: (prototypeLine tableDeclaration ++ '\n' ::
        ("extern \"C\"".toList ++ '\n' :: (headingLine ['2'] ['0'] ++ '\n' ::
          prototypeLine flushDeclaration))) := by
    have hreturn : "\r\n".toList = ['\r', '\n'] := by decide
    have hfeed : "\n".toList = ['\n'] := by decide
    unfold sampleHeader
    repeat rw [String.toList_append]
    rw [List.append_assoc _ "GLAPI const GLubyte * APIENTRY ".toList, ← htable, hreturn, hfeed,
      ← hheading, ← hnext, ← hflush]
    simp only [List.append_assoc, List.cons_append, List.nil_append]
  rw [htext]
  exact .carriageReturn (.lineFeed (.lineFeed (.lineFeed (.last (hflush ▸ by decide)))))

theorem isFurther_extern : IsFurther "extern \"C\"".toList := by
  refine ⟨by decide, by decide +kernel, ?_⟩
  rintro ⟨before, major, minor, between, after, -, -, -, -, heq⟩
  have hhead : (trim "extern \"C\"".toList).head? ≠ some '/' := by decide +kernel
  rw [heq] at hhead
  exact hhead (by simp)

/-- The sample header is a rendering of the sample declarations, and is read back as them. -/
theorem declarations_sampleHeader :
    (∀ d ∈ [tableDeclaration, flushDeclaration], IsDeclarable d) ∧
      Rendering none [tableDeclaration, flushDeclaration] sampleLines ∧
      Layout sampleLines sampleHeader.toList ∧
      declarations sampleHeader = .ok [tableDeclaration, flushDeclaration] := by
  have hnumber : ∀ c, isDecimal c = true → IsNumber [c] := fun c hc =>
    ⟨List.cons_ne_nil _ _, by simpa using hc⟩
  have h0 := hnumber '0' (by decide)
  have h1 := hnumber '1' (by decide)
  have h2 := hnumber '2' (by decide)
  have h3 := hnumber '3' (by decide)
  have hfirst : versionFeature ['1'] ['3'] = tableDeclaration.feature := by decide +kernel
  have hsecond : versionFeature ['2'] ['0'] = flushDeclaration.feature := by decide +kernel
  have htarget : IsArgument ⟨"GLenum", "target"⟩ := by
    refine ⟨⟨?_, ?_⟩, ?_, ?_, ?_, ?_, forall_mem_of_all ?_, ?_⟩ <;> decide +kernel
  have htable : IsArgument ⟨"const void *const *", "table"⟩ := by
    refine ⟨⟨?_, ?_⟩, ?_, ?_, ?_, ?_, forall_mem_of_all ?_, ?_⟩ <;> decide +kernel
  have hds : ∀ d ∈ [tableDeclaration, flushDeclaration], IsDeclarable d := by
    refine List.forall_mem_cons.mpr ⟨?_, List.forall_mem_singleton.mpr ?_⟩
    · refine ⟨⟨['1'], ['3'], h1, h3, hfirst.symm⟩, ?_, forall_mem_of_all ?_, ⟨?_, ?_⟩, ?_, ?_,
        List.forall_mem_cons.mpr ⟨htarget, List.forall_mem_singleton.mpr htable⟩⟩ <;>
        decide +kernel
    · refine ⟨⟨['2'], ['0'], h2, h0, hsecond.symm⟩, ?_, forall_mem_of_all ?_, ⟨?_, ?_⟩, ?_, ?_,
        List.forall_mem_nil _⟩ <;> decide +kernel
  have hrendering : Rendering none [tableDeclaration, flushDeclaration] sampleLines := by
    refine .heading h1 h3 ?_
    rw [hfirst]
    refine .declares _ (.further isFurther_extern (.heading h2 h0 ?_))
    rw [hsecond]
    exact .declares _ (.nil _)
  exact ⟨hds, hrendering, layout_sampleHeader,
    declarations_of_rendering hds hrendering layout_sampleHeader⟩

end CallBridge.Header

import CallBridge.Proofs.Header.Outcome
import CallBridge.Proofs.Header.Reading
import Mathlib.Data.Nat.Find

/-!
# Columns of blank arguments

A report of a blank argument names a column of its line.  The column is counted from where the text
of the arguments occurs for the first time in the line, and that need not be where the arguments
stand: an argument list that is a single comma occurs in any remark before the prototype that holds
a comma.

* `IsFirstOccurrence`, `offsetOf?_eq`: where a text occurs for the first time;
* `BlankSite`: a line and its first blank argument, with the column at which it starts;
* `BlankSite.eq_of_number_eq`: a line has one such site at most;
* `report_of_blank_argument`: the report, and when its column is that of the argument;
* `report_of_earlier_occurrence`: a report with another column.
-/

namespace CallBridge

namespace Text

variable {cs front other run : List Char}

/-! ## Places in a text -/

/-- A run occurs behind `front`, and not before. -/
structure IsFirstOccurrence (front run cs : List Char) : Prop where
  occurs : front ++ run <+: cs
  first : ∀ other, other ++ run <+: cs → front.length ≤ other.length

theorem exists_isFirstOccurrence (h : other ++ run <+: cs) :
    ∃ front, IsFirstOccurrence front run cs := by
  classical
  have hlengths : ∃ n, ∃ front : List Char, front.length = n ∧ front ++ run <+: cs :=
    ⟨_, other, rfl, h⟩
  obtain ⟨front, hlength, hoccurs⟩ := Nat.find_spec hlengths
  exact ⟨front, hoccurs, fun other h => hlength ▸ Nat.find_min' hlengths ⟨other, rfl, h⟩⟩

/-- The byte that is found is that of the first occurrence. -/
theorem offsetOf?_eq (h : IsFirstOccurrence front run cs) : offsetOf? run cs = some (width front) := by
  induction cs generalizing front with
  | nil =>
    obtain ⟨rfl, rfl⟩ := List.append_eq_nil_iff.mp (List.prefix_nil.mp h.occurs)
    rfl
  | cons c cs ih =>
    rw [offsetOf?]
    split
    · rename_i hhere
      obtain ⟨rest, hrest⟩ := startsWith_iff.mp hhere
      have hnil : front = [] :=
        List.length_eq_zero_iff.mp (Nat.le_zero.mp (h.first [] ⟨rest, hrest.symm⟩))
      rw [hnil]
      rfl
    · rename_i hlater
      cases front with
      | nil =>
        obtain ⟨rest, hrest⟩ := h.occurs
        exact absurd (startsWith_iff.mpr ⟨rest, hrest.symm⟩) hlater
      | cons d front =>
        obtain ⟨hd, hrest⟩ := List.cons_prefix_cons.mp h.occurs
        have hbehind : IsFirstOccurrence front run cs := by
          refine ⟨hrest, fun other hother => ?_⟩
          have hle := h.first (c :: other) (List.cons_prefix_cons.mpr ⟨rfl, hother⟩)
          exact Nat.le_of_succ_le_succ hle
        rw [ih hbehind, hd]
        rfl

theorem length_le_width (cs : List Char) : cs.length ≤ width cs := by
  induction cs with
  | nil => exact Nat.le_refl 0
  | cons c cs ih =>
    have hsize := c.utf8Size_pos
    rw [width, List.length_cons]
    omega

/-- Two beginnings of a text that take as many bytes are the same. -/
theorem eq_of_width_eq (hfront : front <+: cs) (hother : other <+: cs)
    (h : width front = width other) : front = other := by
  have hlonger : ∀ {xs ys : List Char}, xs <+: ys → width xs = width ys → xs = ys := by
    rintro xs ys ⟨zs, rfl⟩ hwidth
    have hzs := length_le_width zs
    rw [width_append] at hwidth
    have hnil : zs = [] := List.length_eq_zero_iff.mp (by omega)
    rw [hnil, List.append_nil]
  rcases List.prefix_or_prefix_of_prefix hfront hother with hle | hle
  · exact hlonger hle h
  · exact (hlonger hle h.symm).symm

end Text

namespace Header

open Text

/-! ## The place of a blank argument -/

/-- A line of a header, the reading that is taken of it, and its first blank argument behind
others. -/
structure BlankSite (ls : List (List Char)) where
  above : List (List Char)
  line : List Char
  below : List (List Char)
  reading : Reading
  front : List (List Char)
  argument : List Char
  lines_eq : ls = above ++ line :: below
  text_eq : reading.text = trim line
  preferred : reading.IsPreferred
  first : IsFirst IsBlankArgument (argumentsOf reading.arguments) front argument

namespace BlankSite

variable {ls : List (List Char)} {site other : BlankSite ls}

/-- The number of the line, counted from one. -/
def number (site : BlankSite ls) : Nat :=
  site.above.length + 1

/-- All up to the opening parenthesis of the arguments, with the blanks at the start of the line. -/
def listStart (site : BlankSite ls) : List Char :=
  site.line.takeWhile isBlank ++ site.reading.beforeArguments

/-- The arguments before the blank one, each with the comma behind it. -/
def passed (site : BlankSite ls) : List Char :=
  site.front.flatMap (· ++ [','])

/-- The column of the blank argument, if the argument list stands behind `start`. -/
def columnFrom (site : BlankSite ls) (start : List Char) : Nat :=
  width (start ++ site.passed) + 1

/-- The column at which the blank argument starts. -/
def column (site : BlankSite ls) : Nat :=
  site.columnFrom site.listStart

/-- The report of the blank argument with a given column. -/
def reportAt (site : BlankSite ls) (column : Nat) : Report where
  code := "HDR201"
  message := toString (site.front.length + 1) ++ " 番目の引数が空です"
  line := some site.number
  column := some column
  snippet := some (String.ofList site.line)

theorem span_eq_width (front : List (List Char)) :
    span front = width (front.flatMap (· ++ [','])) := by
  induction front with
  | nil => rfl
  | cons argument front ih =>
    rw [span, ih, List.flatMap_cons, width_append, width_append]
    rfl

/-- The arguments begin with those before the blank one and with that one itself. -/
theorem exists_arguments_eq (site : BlankSite ls) :
    ∃ back, site.reading.arguments = site.passed ++ (site.argument ++ back) := by
  obtain ⟨rest, hsplit⟩ := site.first.split
  have hpieces : pieces (· == ',') site.reading.arguments = site.front ++ site.argument :: rest := by
    rw [← hsplit, argumentsOf]
    split
    · rename_i hnone
      rw [argumentsOf, if_pos hnone] at hsplit
      simp at hsplit
    · rfl
  obtain ⟨back, hback⟩ := prefix_joinWith [','] site.argument rest
  refine ⟨back, ?_⟩
  rw [hback, passed, ← joinWith_append, ← hpieces, joinWith_pieces]

/-- The arguments stand behind `listStart`. -/
theorem exists_line_eq (site : BlankSite ls) :
    ∃ rest, site.line = site.listStart ++ (site.reading.arguments ++ rest) := by
  obtain ⟨blanks, -, hline⟩ := exists_eq_append_trim site.line
  rw [← site.text_eq, Reading.text_eq] at hline
  refine ⟨')' :: (site.reading.endGap ++ ';' :: site.reading.after) ++ blanks, ?_⟩
  rw [listStart]
  simpa only [List.append_assoc] using hline

/-- A line has one site at most. -/
theorem eq_of_number_eq (h : site.number = other.number) : site = other := by
  obtain ⟨above, line, below, r, front, argument, hlines, htext, hpreferred, hfirst⟩ := site
  obtain ⟨above', line', below', r', front', argument', hlines', htext', hpreferred', hfirst'⟩ := other
  obtain ⟨rfl, hrest⟩ := List.append_inj (hlines.symm.trans hlines') (Nat.succ.inj h)
  obtain ⟨rfl, rfl⟩ := List.cons.inj hrest
  obtain rfl := hpreferred.unique hpreferred' (htext.trans htext'.symm)
  obtain ⟨rfl, rfl⟩ := hfirst.unique hfirst'
  rfl

/-- The blank argument starts behind `listStart` and the arguments passed. -/
theorem exists_line_eq_argument (site : BlankSite ls) :
    ∃ back, site.line = site.listStart ++ (site.passed ++ (site.argument ++ back)) := by
  obtain ⟨rest, hline⟩ := site.exists_line_eq
  obtain ⟨back, harguments⟩ := site.exists_arguments_eq
  refine ⟨back ++ rest, ?_⟩
  rw [harguments] at hline
  simpa only [List.append_assoc] using hline

/-- The column in a report counts from the first occurrence of the arguments. -/
theorem argumentColumn_eq {start : List Char}
    (h : IsFirstOccurrence start site.reading.arguments site.line) :
    argumentColumn site.line site.reading.arguments (span site.front) = site.columnFrom start := by
  rw [argumentColumn, offsetOf?_eq h, columnFrom, width_append, span_eq_width]
  rfl

theorem columnFrom_eq_column_iff {start : List Char}
    (h : IsFirstOccurrence start site.reading.arguments site.line) :
    site.columnFrom start = site.column ↔ start = site.listStart := by
  constructor
  · intro hcolumn
    simp only [column, columnFrom, width_append] at hcolumn
    obtain ⟨rest, hline⟩ := site.exists_line_eq
    have hstart : start <+: site.line := (List.prefix_append _ _).trans h.occurs
    exact eq_of_width_eq hstart ⟨_, hline.symm⟩ (by omega)
  · rintro rfl
    rfl

/-- The parts of a prototype before its arguments take nineteen bytes or more. -/
theorem nineteen_lt_column (site : BlankSite ls) : 19 < site.column := by
  have hmarker := List.length_pos_iff.mpr site.reading.markerGap_ne_nil
  have htype := List.length_pos_iff.mpr site.reading.returnType_ne_nil
  have hreturn := List.length_pos_iff.mpr site.reading.returnGap_ne_nil
  have hgap := List.length_pos_iff.mpr site.reading.nameGap_ne_nil
  have hname := List.length_pos_iff.mpr site.reading.name_ne_nil
  have hwidth := length_le_width (site.listStart ++ site.passed)
  have hwords : Prototype.marker.length = 5 ∧ Prototype.convention.length = 8 := ⟨rfl, rfl⟩
  simp only [listStart, Reading.beforeArguments, CalleeReading.headText, List.length_append,
    List.length_singleton] at hwidth
  rw [column, columnFrom]
  simp only [listStart, Reading.beforeArguments, CalleeReading.headText]
  omega

end BlankSite

/-! ## The report -/

/-- A report of a header is that of a blank argument, with the column that is found by searching
for the text of the arguments. -/
theorem exists_site_of_parse_eq_error {provenance text api : String} {report : Report}
    (h : Source.parse .header provenance text api = .error (.source report)) :
    ∃ site : BlankSite (lines text.toList),
      report = site.reportAt
        (argumentColumn site.line site.reading.arguments (span site.front)) := by
  obtain ⟨earlier, place, front, argument, hplace, hfirst, hfails⟩ :=
    Source.parse_header_eq_error_iff.mp h
  obtain ⟨back, hsplit⟩ := hplace.split
  have hmem : place ∈ places (lines text.toList) :=
    hsplit ▸ List.mem_append_right _ List.mem_cons_self
  obtain ⟨above, below, habove, hlines, hprototype⟩ := exists_of_mem_placesBehind hmem
  obtain ⟨r, htext, hpreferred, hr⟩ := find?_eq_some_iff.mp (find?_of_prototype? hprototype)
  have harguments : place.prototype.arguments = r.arguments := by
    rw [← hr]
    rfl
  cases hfails with
  | blank hblank =>
    have hfirst : IsFirst IsBlankArgument (argumentsOf r.arguments) front argument := by
      rw [← harguments]
      exact ⟨hfirst.split, fun other hother hblank => hfirst.earlier other hother (.inl hblank),
        hblank⟩
    refine ⟨⟨above, place.line, below, r, front, argument, hlines, htext, hpreferred, hfirst⟩, ?_⟩
    rw [Place.blankReport, Place.number, habove, harguments]
    rfl

/-- Where the report of a blank argument points.

* It is the report of the first blank argument of a line, as the line is read as a prototype.  It has
  the number and the text of that line, and no other site has that number.
* Its column counts from the first occurrence of the text of the arguments in the line.
* It is the column at which the blank argument starts if and only if the arguments themselves are
  that first occurrence. -/
theorem report_of_blank_argument {provenance text api : String} {report : Report}
    (h : Source.parse .header provenance text api = .error (.source report)) :
    ∃ site : BlankSite (lines text.toList),
      (∀ other : BlankSite (lines text.toList), report.line = some other.number → other = site) ∧
      (∃ back, site.line = site.listStart ++ (site.passed ++ (site.argument ++ back))) ∧
      ∃ start, IsFirstOccurrence start site.reading.arguments site.line ∧
        report = site.reportAt (site.columnFrom start) ∧
        (report.column = some site.column ↔ start = site.listStart) := by
  obtain ⟨site, hreport⟩ := exists_site_of_parse_eq_error h
  obtain ⟨rest, hline⟩ := site.exists_line_eq
  have hoccurs : site.listStart ++ site.reading.arguments <+: site.line :=
    ⟨rest, by rw [hline, List.append_assoc]⟩
  obtain ⟨start, hstart⟩ := exists_isFirstOccurrence hoccurs
  rw [site.argumentColumn_eq hstart] at hreport
  refine ⟨site, fun other hother => ?_, site.exists_line_eq_argument, start, hstart, hreport, ?_⟩
  · rw [hreport] at hother
    exact BlankSite.eq_of_number_eq (Option.some.inj hother).symm
  · rw [hreport, ← site.columnFrom_eq_column_iff hstart]
    exact Option.some_inj

/-- The second argument of a prototype on the second line is blank. -/
theorem report_of_glBroken :
    ∃ site : BlankSite (lines "/* ok */\nGLAPI void APIENTRY glBroken( GLint a, , GLint b );".toList),
      site.number = 2 ∧
      ∃ start, IsFirstOccurrence start site.reading.arguments site.line ∧
        site.columnFrom start = 39 := by
  have hparse : Source.parse .header "bad.h"
      "/* ok */\nGLAPI void APIENTRY glBroken( GLint a, , GLint b );" "gl" =
      .error (.source {
        code := "HDR201"
        message := "2 番目の引数が空です"
        line := some 2
        column := some 39
        snippet := some "GLAPI void APIENTRY glBroken( GLint a, , GLint b );" }) := by
    decide +kernel
  obtain ⟨site, -, -, start, hstart, hreport, -⟩ := report_of_blank_argument hparse
  have hnumber : some 2 = some site.number := congrArg Report.line hreport
  have hcolumn : some 39 = some (site.columnFrom start) := congrArg Report.column hreport
  exact ⟨site, (Option.some.inj hnumber).symm, start, hstart, (Option.some.inj hcolumn).symm⟩

/-- A comma in a remark is taken for the argument list, which is a comma as well. -/
theorem report_of_earlier_occurrence :
    ∃ report, Source.parse .header "gl.h" "/* a, b */ GLAPI void APIENTRY glFoo(,);" "gl" =
        .error (.source report) ∧ report.column = some 5 ∧
      ∃ site : BlankSite (lines "/* a, b */ GLAPI void APIENTRY glFoo(,);".toList),
        report.line = some site.number ∧ report.column ≠ some site.column := by
  have hparse : Source.parse .header "gl.h" "/* a, b */ GLAPI void APIENTRY glFoo(,);" "gl" =
      .error (.source {
        code := "HDR201"
        message := "1 番目の引数が空です"
        line := some 1
        column := some 5
        snippet := some "/* a, b */ GLAPI void APIENTRY glFoo(,);" }) := by
    decide +kernel
  obtain ⟨site, hreport⟩ := exists_site_of_parse_eq_error hparse
  refine ⟨_, hparse, rfl, site, by rw [hreport]; rfl, ?_⟩
  have hcolumn := site.nineteen_lt_column
  intro hsame
  rw [← Option.some.inj hsame] at hcolumn
  exact absurd hcolumn (by decide)

end Header

end CallBridge

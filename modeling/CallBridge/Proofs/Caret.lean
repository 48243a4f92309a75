import CallBridge.Proofs.Dispatch.Setters
import CallBridge.Proofs.Header.Column

/-!
# The caret below a line

A report shows the line complained of and a caret below it.  The caret is put behind as many blanks as
the place has bytes before it, while the line above it is shown character by character.  So the caret
stands under the place if all characters before the place are ASCII, and too far to the right if one
of them takes more than a byte.

* `width_eq_length_iff`: texts that have as many bytes as characters;
* `PutsCaret`: where a caret stands in a displayed text, read off its last line.  `PutsCaret.unique`:
  it stands in one place only;
* `caret_of_reports`: the caret for a blank argument of a header and for a setter without a slot name;
* `caret_behind_wide_blank`: a caret under the wrong character.
-/

namespace CallBridge

open Text

variable {cs line before : List Char} {shown : String} {indent other : Nat} {r : Report}

/-! ## Bytes and characters -/

theorem Text.utf8Size_eq_one_iff {c : Char} : c.utf8Size = 1 ↔ c.toNat < 128 := by
  rw [Char.utf8Size_eq_one_iff, UInt32.le_iff_toNat_le]
  exact Nat.lt_succ_iff.symm

/-- A text has as many bytes as characters if and only if it is ASCII. -/
theorem Text.width_eq_length_iff : width cs = cs.length ↔ ∀ c ∈ cs, c.toNat < 128 := by
  induction cs with
  | nil => simp [width]
  | cons c cs ih =>
    have hsize := c.utf8Size_pos
    have hrest := length_le_width cs
    rw [List.forall_mem_cons, ← ih, ← utf8Size_eq_one_iff, width, List.length_cons]
    omega

/-! ## Where a caret stands -/

/-- A displayed text ends with a line and, below it, a caret with blanks before it. -/
def PutsCaret (shown : String) (line : List Char) (indent : Nat) : Prop :=
  ∃ head, shown.toList = head ++ '\n' :: line ++ '\n' :: (List.replicate indent ' ' ++ ['^'])

/-- A caret stands in one place only, whatever the line above it is taken to be. -/
theorem PutsCaret.unique {otherLine : List Char} (h : PutsCaret shown line indent)
    (hother : PutsCaret shown otherLine other) : indent = other := by
  have hindent {line : List Char} {indent : Nat} (h : PutsCaret shown line indent) :
      (shown.toList.reverse.tail.takeWhile (· == ' ')).length = indent := by
    obtain ⟨head, htext⟩ := h
    rw [htext]
    simp
  rw [← hindent h, ← hindent hother]

theorem Report.putsCaret_text (hsnippet : r.snippet = some (String.ofList line))
    (hcolumn : r.column = some (indent + 1)) : PutsCaret r.text line indent := by
  refine ⟨("[" ++ r.code ++ "] " ++ r.message ++ r.place).toList, ?_⟩
  simp [text, excerpt, hsnippet, hcolumn, caret, List.append_assoc]

/-- How a report points at a place of a line, if its column is that of the place in bytes: the caret
has a blank before it for each byte before the place, so it is never too far to the left. -/
structure CaretFor (r : Report) (line before : List Char) : Prop where
  puts_iff : ∀ indent, PutsCaret r.text line indent ↔ indent = width before
  length_le : before.length ≤ width before
  /-- The caret stands under the place only behind ASCII. -/
  under_iff : PutsCaret r.text line before.length ↔ ∀ c ∈ before, c.toNat < 128

theorem caretFor_of_column (hsnippet : r.snippet = some (String.ofList line))
    (hcolumn : r.column = some (width before + 1)) : CaretFor r line before := by
  have hputs : PutsCaret r.text line (width before) := Report.putsCaret_text hsnippet hcolumn
  have hiff : ∀ indent, PutsCaret r.text line indent ↔ indent = width before := by
    intro indent
    constructor
    · exact fun h => h.unique hputs
    · rintro rfl
      exact hputs
  refine ⟨hiff, length_le_width before, ?_⟩
  rw [hiff, eq_comm, width_eq_length_iff]

/-! ## The two reports with a caret -/

/-- Where the caret of a report stands.

* A header is rejected for a blank argument of one of its lines.  If the column of the report is the one
  at which that argument starts, the caret has a blank before it for each byte of the line before the
  argument.
* A dispatch header is rejected for its first setter without a slot name.  The caret has a blank before it
  for each byte before the first character of the line that is no blank.

Either caret stands under the place if and only if all characters of the line before the place are
ASCII, and else too far to the right. -/
theorem caret_of_reports (text : String) :
    (∀ provenance api report,
      Source.parse .header provenance text api = .error (.source report) →
      ∃ site : Header.BlankSite (lines text.toList),
        report.line = some site.number ∧
        (∃ back, site.line = site.listStart ++ (site.passed ++ (site.argument ++ back))) ∧
        (report.column = some site.column →
          CaretFor report site.line (site.listStart ++ site.passed))) ∧
    ∀ apiPrefix ignored fault,
      Dispatch.Requirement.parse text apiPrefix ignored = .error fault →
      ∃ front line blanks c rest,
        IsFirst (Dispatch.SetsSlot · []) (lines text.toList) front line ∧
        line = blanks ++ c :: rest ∧ (∀ b ∈ blanks, isBlank b = true) ∧ isBlank c = false ∧
        fault.report.line = some (front.length + 1) ∧ CaretFor fault.report line blanks := by
  constructor
  · intro provenance api report h
    obtain ⟨site, hreport⟩ := Header.exists_site_of_parse_eq_error h
    refine ⟨site, by rw [hreport]; rfl, site.exists_line_eq_argument, fun hcolumn => ?_⟩
    exact caretFor_of_column (by rw [hreport]; rfl) hcolumn
  · intro apiPrefix ignored fault h
    obtain ⟨front, line, hfirst, hcomplains⟩ :=
      Dispatch.Requirement.exists_parse_eq_error_iff.mp ⟨fault, h, rfl⟩
    obtain ⟨blanks, c, rest, hline, hblanks, hc, hcolumn⟩ := hcomplains.column_eq
    exact ⟨front, line, blanks, c, rest, hfirst, hline, hblanks, hc, hcomplains.line_eq,
      caretFor_of_column hcomplains.snippet_eq hcolumn⟩

/-- A setter without a slot name behind one wide blank of three bytes: the caret stands two characters
too far to the right. -/
theorem caret_behind_wide_blank :
    ∃ fault, Dispatch.Requirement.parse "\u3000SET_(f)" "gl" [] = .error fault ∧
      isBlank '\u3000' = true ∧ Dispatch.SetsSlot "\u3000SET_(f)".toList [] ∧
      PutsCaret fault.report.text "\u3000SET_(f)".toList 3 ∧
      ¬ PutsCaret fault.report.text "\u3000SET_(f)".toList ['\u3000'].length := by
  have hparse : Dispatch.Requirement.parse "\u3000SET_(f)" "gl" [] =
      .error ⟨1, 4, "\u3000SET_(f)"⟩ := by
    decide +kernel
  have hputs : PutsCaret (Dispatch.Fault.mk 1 4 "\u3000SET_(f)").report.text
      "\u3000SET_(f)".toList 3 :=
    Report.putsCaret_text (by rw [String.ofList_toList]; rfl) rfl
  refine ⟨_, hparse, by decide, ?_, hputs, fun hunder => ?_⟩
  · exact Dispatch.setterSlot?_eq_some_iff.mp (by decide +kernel)
  · exact absurd (hputs.unique hunder) (by decide)

end CallBridge

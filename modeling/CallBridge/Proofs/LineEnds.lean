import CallBridge.Failure
import CallBridge.Proofs.Text.Lines

/-!
# Line ends do not matter

A header and a dispatch header are read line by line, and what is found on a line is told with the
number of the line, with a column and with the text of the line as it stands.  None of it depends on
whether lines end with a line feed alone or with a carriage return before it.

`outcomes_of_line_ends` says so of every text that has no carriage return to begin with, whether all
of its line feeds get one or only some.
-/

namespace CallBridge

open Text

/-- Two texts have the same outcome, as a header and as a dispatch header: the same declarations or
slots, the same report, or the same end without one. -/
structure ReadAlike (text other : String) : Prop where
  header : ∀ provenance api,
    Source.parse .header provenance other api = Source.parse .header provenance text api
  dispatchHeader : ∀ apiPrefix ignored,
    Dispatch.Requirement.parse other apiPrefix ignored =
      Dispatch.Requirement.parse text apiPrefix ignored

variable {text other : String}

/-- Nothing but the lines of a text is read. -/
theorem readAlike_of_lines (h : lines other.toList = lines text.toList) : ReadAlike text other where
  header provenance api := by
    have hdeclarations : Header.declarations other = Header.declarations text := by
      rw [Header.declarations, Header.declarations, h]
    rw [Source.parse, Source.parse, Source.ofHeader, Source.ofHeader, hdeclarations]
  dispatchHeader apiPrefix ignored := by
    rw [Dispatch.Requirement.parse, Dispatch.Requirement.parse, h]

/-- A text without carriage returns has the same outcome if each of its line feeds gets one, and also
if only some of them do. -/
theorem outcomes_of_line_ends (hfree : '\r' ∉ text.toList) :
    ReadAlike text (String.ofList (withReturns text.toList)) ∧
    ∀ other : String, GetsReturns text.toList other.toList → ReadAlike text other := by
  have hsome (other : String) (hother : GetsReturns text.toList other.toList) :
      ReadAlike text other :=
    readAlike_of_lines (lines_of_getsReturns hother hfree)
  refine ⟨hsome _ ?_, hsome⟩
  rw [String.toList_ofList]
  exact getsReturns_withReturns text.toList

/-- A blank argument behind an empty line and a section comment, and a setter without a slot name:
with carriage returns, they are found in the same places. -/
theorem outcomes_of_returns_glFoo :
    let blankArgument : Report := {
      code := "HDR201"
      message := "2 番目の引数が空です"
      line := some 3
      column := some 36
      snippet := some " GLAPI void APIENTRY glFoo(GLint a, );" }
    Source.parse .header "gl.h"
        "/* 1.2 functions */\r\n\r\n GLAPI void APIENTRY glFoo(GLint a, );\r\n" "gl" =
      .error (.source blankArgument) ∧
    Dispatch.Requirement.parse "#define SET_Foo(f)\r\n  SET_(f)" "gl" [] =
      .error ⟨2, 3, "  SET_(f)"⟩ := by
  intro blankArgument
  have hheader : ReadAlike
      "/* 1.2 functions */\n\n GLAPI void APIENTRY glFoo(GLint a, );\n"
      "/* 1.2 functions */\r\n\r\n GLAPI void APIENTRY glFoo(GLint a, );\r\n" :=
    (outcomes_of_line_ends (by decide)).1
  have hdispatchHeader : ReadAlike "#define SET_Foo(f)\n  SET_(f)"
      "#define SET_Foo(f)\r\n  SET_(f)" :=
    (outcomes_of_line_ends (by decide)).1
  rw [hheader.header, hdispatchHeader.dispatchHeader]
  decide +kernel

end CallBridge

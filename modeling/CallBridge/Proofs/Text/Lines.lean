import CallBridge.Proofs.Text.Blank
import CallBridge.Text.Lines
import Mathlib.Data.List.Forall2

/-!
# Lines of a text that is written line by line

* `trim_lines_of_layout`: the lines of a text are those it was written from, except for a carriage
  return at the end of a line, which trimming takes away.
* `lines_of_getsReturns`: the lines of a text stay as they are if its line feeds, or some of them,
  get a carriage return.
-/

namespace CallBridge.Text

/-- A text made of lines.  Every line ends in a line feed, with or without a carriage return
before it.  The last line may also have no end, if it is not empty. -/
inductive Layout : List (List Char) → List Char → Prop where
  | nil : Layout [] []
  | last {line : List Char} (hne : line ≠ []) : Layout [line] line
  | lineFeed {line : List Char} {ls : List (List Char)} {text : List Char}
      (rest : Layout ls text) : Layout (line :: ls) (line ++ '\n' :: text)
  | carriageReturn {line : List Char} {ls : List (List Char)} {text : List Char}
      (rest : Layout ls text) : Layout (line :: ls) (line ++ '\r' :: '\n' :: text)

variable {c : Char} {cs line text : List Char} {ls : List (List Char)}

theorem Layout.exists (ls : List (List Char)) : ∃ text, Layout ls text := by
  induction ls with
  | nil => exact ⟨[], .nil⟩
  | cons line ls ih =>
    obtain ⟨text, htext⟩ := ih
    exact ⟨_, .lineFeed htext⟩

theorem lines_cons (hc : c ≠ '\n') (hreturn : c = '\r' → ∀ rest, cs ≠ '\n' :: rest) :
    lines (c :: cs) = consLine c (lines cs) := by
  rw [lines.eq_def]
  split
  · contradiction
  · rename_i heq
    exact absurd (List.cons.inj heq).1 hc
  · rename_i heq
    exact absurd (List.cons.inj heq).2 (hreturn (List.cons.inj heq).1 _)
  · rename_i heq
    rw [(List.cons.inj heq).1, (List.cons.inj heq).2]

/-- A line ends at the first line feed, and a carriage return before it belongs to the end. -/
theorem lines_append_lineFeed (hline : '\n' ∉ line) (text : List Char) :
    ∃ raw, lines (line ++ '\n' :: text) = raw :: lines text ∧ (raw = line ∨ line = raw ++ ['\r']) := by
  induction line with
  | nil => exact ⟨[], rfl, .inl rfl⟩
  | cons c line ih =>
    obtain ⟨hc, hrest⟩ := not_or.mp (List.mem_cons.not.mp hline)
    by_cases hend : c = '\r' ∧ line = []
    · obtain ⟨rfl, rfl⟩ := hend
      exact ⟨[], rfl, .inr rfl⟩
    · obtain ⟨raw, hlines, hraw⟩ := ih hrest
      have hstep : lines (c :: (line ++ '\n' :: text)) = consLine c (lines (line ++ '\n' :: text)) := by
        refine lines_cons (Ne.symm hc) fun hreturn rest heq => ?_
        cases line with
        | nil => exact hend ⟨hreturn, rfl⟩
        | cons d line => exact hrest ((List.cons.inj heq).1 ▸ List.mem_cons_self)
      refine ⟨c :: raw, by rw [List.cons_append, hstep, hlines]; rfl, ?_⟩
      exact hraw.imp (congrArg (c :: ·)) (congrArg (c :: ·))

theorem lines_of_no_lineFeed (hne : line ≠ []) (hline : '\n' ∉ line) : lines line = [line] := by
  induction line with
  | nil => exact absurd rfl hne
  | cons c line ih =>
    obtain ⟨hc, hrest⟩ := not_or.mp (List.mem_cons.not.mp hline)
    have hstep : lines (c :: line) = consLine c (lines line) :=
      lines_cons (Ne.symm hc) fun _ rest heq => hrest (heq ▸ List.mem_cons_self)
    cases line with
    | nil => exact hstep
    | cons d line => rw [hstep, ih (List.cons_ne_nil _ _) hrest]; rfl

/-- A text in which line feeds have got a carriage return: all of them, some or none. -/
inductive GetsReturns : List Char → List Char → Prop where
  | nil : GetsReturns [] []
  | keep (c : Char) {cs ds : List Char} (rest : GetsReturns cs ds) : GetsReturns (c :: cs) (c :: ds)
  | lineFeed {cs ds : List Char} (rest : GetsReturns cs ds) :
      GetsReturns ('\n' :: cs) ('\r' :: '\n' :: ds)

theorem getsReturns_withReturns (cs : List Char) : GetsReturns cs (withReturns cs) := by
  induction cs with
  | nil => exact .nil
  | cons c cs ih =>
    rw [withReturns]
    split
    · next hc =>
      subst hc
      exact .lineFeed ih
    · exact .keep c ih

/-- Carriage returns before line feeds belong to the line ends, if there have been none before. -/
theorem lines_of_getsReturns {ds : List Char} (h : GetsReturns cs ds) (hfree : '\r' ∉ cs) :
    lines ds = lines cs := by
  induction h with
  | nil => rfl
  | @keep c cs ds rest ih =>
    obtain ⟨hc, hcs⟩ := not_or.mp (List.mem_cons.not.mp hfree)
    by_cases hfeed : c = '\n'
    · subst hfeed
      exact congrArg ([] :: ·) (ih hcs)
    · have hreturn (es : List Char) : c = '\r' → ∀ rest, es ≠ '\n' :: rest :=
        fun heq => absurd heq.symm hc
      rw [lines_cons hfeed (hreturn ds), lines_cons hfeed (hreturn cs), ih hcs]
  | @lineFeed cs ds rest ih =>
    exact congrArg ([] :: ·) (ih (List.not_mem_of_not_mem_cons hfree))

/-- Trimmed, the lines of a text are the lines it was written from. -/
theorem trim_lines_of_layout (h : Layout ls text) (hfree : ∀ line ∈ ls, '\n' ∉ line) :
    List.Forall₂ (fun raw line => trim raw = trim line) (lines text) ls := by
  have hreturn : isBlank '\r' = true := by decide
  induction h with
  | nil => exact .nil
  | last hne =>
    rw [lines_of_no_lineFeed hne (hfree _ List.mem_cons_self)]
    exact .cons rfl .nil
  | @lineFeed line ls text _ ih =>
    obtain ⟨hline, hrest⟩ := List.forall_mem_cons.mp hfree
    obtain ⟨raw, hlines, rfl | rfl⟩ := lines_append_lineFeed hline text
    · exact hlines ▸ .cons rfl (ih hrest)
    · exact hlines ▸ .cons (trim_concat hreturn).symm (ih hrest)
  | @carriageReturn line ls text _ ih =>
    obtain ⟨hline, hrest⟩ := List.forall_mem_cons.mp hfree
    have hended : '\n' ∉ line ++ ['\r'] := by
      intro hmem
      exact (List.mem_append.mp hmem).elim hline (by decide)
    obtain ⟨raw, hlines, hraw⟩ := lines_append_lineFeed hended text
    have htrim : trim raw = trim line := by
      rcases hraw with rfl | heq
      · exact trim_concat hreturn
      · rw [List.append_cancel_right heq]
    rw [List.append_assoc, List.singleton_append] at hlines
    exact hlines ▸ .cons htrim (ih hrest)

end CallBridge.Text

import CallBridge.Proofs.Dispatch.Entries
import CallBridge.Proofs.Outcome
import CallBridge.Proofs.Text.ByteOrder
import CallBridge.Proofs.Text.Classes
import CallBridge.Proofs.Text.Match

/-!
# Setter lines of a dispatch header

A line sets a slot if, without the blanks at its ends, it is an introduction, `SET_`, the slot, an
opening parenthesis and anything.  `SetsSlot` says so of the line alone.

* `setterSlot?_eq_some_iff`: the slot that is found on a line is the one that it sets;
* `slotsFrom_eq_ok_iff`, `slotsFrom_eq_error_iff`: lines in a row;
* `Requirement.setters_of_header`: when a dispatch header can be read, what it is rejected with, and
  what it asks for.
-/

namespace CallBridge.Dispatch

open Text

/-- One blank or more. -/
structure IsSpacing (cs : List Char) : Prop where
  ne_nil : cs ≠ []
  blank : ∀ b ∈ cs, isBlank b = true

/-- What may stand before a setter: nothing, `#define`, or `static inline` and a type of one word. -/
inductive IsIntroduction : List Char → Prop where
  | nothing : IsIntroduction []
  | define {gap space : List Char} (hgap : ∀ b ∈ gap, isBlank b = true) (hspace : IsSpacing space) :
      IsIntroduction (['#'] ++ (gap ++ ("define".toList ++ space)))
  | inline {first second type third : List Char} (hfirst : IsSpacing first)
      (hsecond : IsSpacing second) (hne : type ≠ []) (htype : ∀ c ∈ type, isWordChar c = true)
      (hthird : IsSpacing third) :
      IsIntroduction
        ("static".toList ++ (first ++ ("inline".toList ++ (second ++ (type ++ third)))))

/-- A line sets a slot. -/
def SetsSlot (line slot : List Char) : Prop :=
  ∃ introduction rest, IsIntroduction introduction ∧
    trim line = introduction ++ ("SET_".toList ++ (slot ++ '(' :: rest)) ∧
    ∀ c ∈ slot, isBlank c = false ∧ c ≠ '('

/-- The report of a setter without a slot name, on a line behind others. -/
structure Complains (front : List (List Char)) (line : List Char) (report : Report) : Prop where
  code_eq : report.code = "DSP301"
  message_eq : report.message = "SET_ マクロにスロット名がありません"
  offset_eq : report.offset = none
  line_eq : report.line = some (front.length + 1)
  column_eq : ∃ blanks c rest, line = blanks ++ c :: rest ∧ (∀ b ∈ blanks, isBlank b = true) ∧
    isBlank c = false ∧ report.column = some (width blanks + 1)
  snippet_eq : report.snippet = some (String.ofList line)

variable {line slot other cs rest introduction : List Char} {ls front slots : List (List Char)}
  {number : Nat} {fault : Fault} {report : Report} {text apiPrefix : String} {ignored : List String}

/-! ## One line -/

theorem afterBlanks?_eq_some_iff_spacing :
    afterBlanks? cs = some rest ↔
      ∃ space, IsSpacing space ∧ (∀ c ∈ rest.head?, isBlank c = false) ∧ cs = space ++ rest := by
  rw [afterBlanks?_eq_some_iff]
  constructor
  · rintro ⟨space, hne, hblank, hrest, hcs⟩
    exact ⟨space, ⟨hne, hblank⟩, hrest, hcs⟩
  · rintro ⟨space, hspace, hrest, hcs⟩
    exact ⟨space, hspace.ne_nil, hspace.blank, hrest, hcs⟩

/-- What is taken off a line before a setter is an introduction. -/
theorem exists_introduction (line : List Char) :
    ∃ introduction, IsIntroduction introduction ∧
      line = introduction ++ withoutIntroduction line := by
  unfold withoutIntroduction
  cases hdefine : afterDefine? line with
  | some rest =>
    simp only [afterDefine?, Option.bind_eq_bind, Option.bind_eq_some_iff] at hdefine
    obtain ⟨cs₁, hmark, cs₂, hword, hspace⟩ := hdefine
    rw [after?_eq_some_iff] at hmark hword
    obtain ⟨space, hspace, -, hcs₂⟩ := afterBlanks?_eq_some_iff_spacing.mp hspace
    obtain ⟨gap, hgap, hcs₁⟩ := exists_blanks_append_trimStart cs₁
    refine ⟨_, .define hgap hspace, ?_⟩
    rw [hmark, hcs₁, hword, hcs₂]
    simp only [Option.some_or, Option.getD_some, List.append_assoc]
  | none =>
    cases hinline : afterInline? line with
    | some rest =>
      simp only [afterInline?, Option.bind_eq_bind, Option.bind_eq_some_iff] at hinline
      obtain ⟨cs₁, hstatic, cs₂, hfirst, cs₃, hword, cs₄, hsecond, ⟨type, cs₅⟩, htype, hthird⟩ :=
        hinline
      rw [after?_eq_some_iff] at hstatic hword
      obtain ⟨first, hfirst, -, hcs₁⟩ := afterBlanks?_eq_some_iff_spacing.mp hfirst
      obtain ⟨second, hsecond, -, hcs₃⟩ := afterBlanks?_eq_some_iff_spacing.mp hsecond
      obtain ⟨hne, hcs₄, htype⟩ := run?_eq_some htype
      obtain ⟨third, hthird, -, hcs₅⟩ := afterBlanks?_eq_some_iff_spacing.mp hthird
      refine ⟨_, .inline hfirst hsecond hne htype hthird, ?_⟩
      simp only at hcs₅
      rw [hstatic, hcs₁, hword, hcs₃, hcs₄, hcs₅]
      simp only [Option.none_or, Option.getD_some, List.append_assoc]
    | none => exact ⟨[], .nothing, rfl⟩

/-- An introduction is taken off whole: a setter begins with no blank and is no introduction. -/
theorem withoutIntroduction_append (h : IsIntroduction introduction) (rest : List Char) :
    withoutIntroduction (introduction ++ 'S' :: rest) = 'S' :: rest := by
  have hsetter : ∀ c ∈ ('S' :: rest).head?, isBlank c = false := forall_head?_cons (by decide) rest
  cases h with
  | nothing => rfl
  | @define gap space hgap hspace =>
    have hword : ∀ c ∈ ("define".toList ++ (space ++ 'S' :: rest)).head?, isBlank c = false :=
      forall_head?_cons (by decide) _
    have hfound : afterDefine? (['#'] ++ (gap ++ ("define".toList ++ (space ++ 'S' :: rest)))) =
        some ('S' :: rest) := by
      simp only [afterDefine?, Option.bind_eq_bind]
      rw [after?_append, Option.bind_some, trimStart, (takeWhile_append_stop hgap hword).2,
        after?_append, Option.bind_some, afterBlanks?_append hspace.ne_nil hspace.blank hsetter]
    simp only [withoutIntroduction, List.append_assoc, hfound, Option.some_or, Option.getD_some]
  | @inline first second type third hfirst hsecond hne htype hthird =>
    have hword : ∀ cs, ∀ c ∈ ("inline".toList ++ cs).head?, isBlank c = false := fun cs =>
      forall_head?_cons (by decide) _
    have htypeHead : ∀ cs, ∀ c ∈ (type ++ cs).head?, isBlank c = false := by
      intro cs
      obtain ⟨d, ds, rfl⟩ := List.exists_cons_of_ne_nil hne
      exact forall_head?_cons (not_isBlank_of_isWordChar (htype d List.mem_cons_self)) _
    have hthirdHead : ∀ cs, ∀ c ∈ (third ++ cs).head?, isWordChar c = false := by
      intro cs
      obtain ⟨d, ds, rfl⟩ := List.exists_cons_of_ne_nil hthird.ne_nil
      exact forall_head?_cons (not_isWordChar_of_isBlank (hthird.blank d List.mem_cons_self)) _
    have hfound : afterInline? ("static".toList ++ (first ++ ("inline".toList ++
        (second ++ (type ++ (third ++ 'S' :: rest)))))) = some ('S' :: rest) := by
      simp only [afterInline?, Option.bind_eq_bind]
      rw [after?_append, Option.bind_some,
        afterBlanks?_append hfirst.ne_nil hfirst.blank (hword _), Option.bind_some, after?_append,
        Option.bind_some, afterBlanks?_append hsecond.ne_nil hsecond.blank (htypeHead _),
        Option.bind_some, run?_append hne htype (hthirdHead _), Option.bind_some]
      exact afterBlanks?_append hthird.ne_nil hthird.blank hsetter
    have hnoDefine : ∀ cs, afterDefine? ("static".toList ++ cs) = none := fun _ => rfl
    simp only [withoutIntroduction, List.append_assoc, hnoDefine, hfound, Option.none_or,
      Option.getD_some]

theorem setterSlot?_eq_some_iff : setterSlot? (trim line) = some slot ↔ SetsSlot line slot := by
  simp only [setterSlot?, Option.bind_eq_bind, Option.bind_eq_some_iff, after?_eq_some_iff,
    Option.some.injEq]
  constructor
  · rintro ⟨cs, hsetter, rest, hopen, rfl⟩
    obtain ⟨introduction, hintroduction, hline⟩ := exists_introduction (trim line)
    refine ⟨introduction, rest, hintroduction, ?_, fun c hc => ?_⟩
    · have hcs : cs.takeWhile isSlotChar ++ '(' :: rest = cs := by
        have hsplit := List.takeWhile_append_dropWhile (p := isSlotChar) (l := cs)
        rwa [hopen] at hsplit
      rw [hcs, ← hsetter]
      exact hline
    · have hslot := List.mem_takeWhile_imp hc
      simpa [isSlotChar] using hslot
  · rintro ⟨introduction, rest, hintroduction, hline, hslot⟩
    have hchars : ∀ c ∈ slot, isSlotChar c = true := by
      simpa [isSlotChar] using hslot
    have hstop : ∀ c ∈ ('(' :: rest).head?, isSlotChar c = false :=
      forall_head?_cons (by decide) rest
    obtain ⟨htake, hdrop⟩ := takeWhile_append_stop hchars hstop
    exact ⟨slot ++ '(' :: rest, hline ▸ withoutIntroduction_append hintroduction _, rest, hdrop, htake⟩

/-- A line sets one slot at most. -/
theorem SetsSlot.unique (h : SetsSlot line slot) (hother : SetsSlot line other) : slot = other := by
  rw [← setterSlot?_eq_some_iff] at h hother
  exact Option.some.inj (h.symm.trans hother)

/-! ## Lines in a row -/

/-- Lines are read if every setter has a slot name, and then they give their slots. -/
theorem slotsFrom_eq_ok_iff :
    slotsFrom number ls = .ok slots ↔
      (∀ line ∈ ls, ¬ SetsSlot line []) ∧ slots = ls.filterMap fun line => setterSlot? (trim line) := by
  induction ls generalizing number slots with
  | nil => simp [slotsFrom, eq_comm]
  | cons line ls ih =>
    rw [List.forall_mem_cons, ← setterSlot?_eq_some_iff, slotsFrom, List.filterMap_cons]
    cases hslot : setterSlot? (trim line) with
    | none => simp only [ih, reduceCtorEq, not_false_eq_true, true_and]
    | some found =>
      cases found with
      | nil =>
        refine iff_of_false (fun h => ?_) fun h => h.1.1 rfl
        contradiction
      | cons c cs =>
        simp only [bind_eq_ok_iff, ih, Except.ok.injEq, Option.some.injEq, reduceCtorEq,
          not_false_eq_true, true_and]
        constructor
        · rintro ⟨rest, ⟨hnamed, rfl⟩, rfl⟩
          exact ⟨hnamed, rfl⟩
        · rintro ⟨hnamed, rfl⟩
          exact ⟨_, ⟨hnamed, rfl⟩, rfl⟩

/-- Lines are rejected for the first setter without a slot name. -/
theorem slotsFrom_eq_error_iff :
    slotsFrom number ls = .error fault ↔
      ∃ front line, IsFirst (SetsSlot · []) ls front line ∧
        fault = ⟨number + front.length, width (line.takeWhile isBlank) + 1, String.ofList line⟩ := by
  induction ls generalizing number with
  | nil =>
    refine iff_of_false nofun ?_
    rintro ⟨front, line, hfirst, -⟩
    obtain ⟨x, hx, -⟩ := exists_isFirst_iff.mp ⟨front, line, hfirst⟩
    exact List.not_mem_nil hx
  | cons line ls ih =>
    by_cases hnameless : SetsSlot line []
    · have hslot := setterSlot?_eq_some_iff.mpr hnameless
      rw [slotsFrom, hslot, Except.error.injEq]
      constructor
      · rintro rfl
        exact ⟨[], line, isFirst_nil hnameless, rfl⟩
      · rintro ⟨front, first, hfirst, rfl⟩
        rcases isFirst_cons_iff.mp hfirst with ⟨rfl, rfl, -⟩ | ⟨hnot, -⟩
        · rfl
        · exact absurd hnameless hnot
    · have hrest : slotsFrom number (line :: ls) = .error fault ↔
          slotsFrom (number + 1) ls = .error fault := by
        rw [slotsFrom]
        split
        · rfl
        · exact absurd (setterSlot?_eq_some_iff.mp ‹_›) hnameless
        · rw [bind_eq_error_iff]
          simp
      have hplace : ∀ front : List (List Char),
          number + 1 + front.length = number + (line :: front).length := by
        intro front
        rw [List.length_cons]
        omega
      rw [hrest, ih]
      constructor
      · rintro ⟨front, first, hfirst, rfl⟩
        exact ⟨line :: front, first, hfirst.cons hnameless, by rw [hplace]⟩
      · rintro ⟨front, first, hfirst, rfl⟩
        rcases isFirst_cons_iff.mp hfirst with ⟨-, -, h⟩ | ⟨-, more, rfl, hmore⟩
        · exact absurd h hnameless
        · exact ⟨more, first, hmore, by rw [hplace]⟩

/-! ## The whole header -/

/-- A setter line has a first character that is no blank. -/
theorem SetsSlot.exists_head (h : SetsSlot line slot) :
    ∃ blanks c rest, line = blanks ++ c :: rest ∧ (∀ b ∈ blanks, isBlank b = true) ∧
      isBlank c = false := by
  obtain ⟨blanks, hblanks, hline⟩ := exists_blanks_append_trimStart line
  cases hstart : trimStart line with
  | nil =>
    rw [hstart, List.append_nil] at hline
    obtain ⟨introduction, rest, -, htrim, -⟩ := h
    rw [trim_eq_nil_iff.mpr (hline ▸ hblanks)] at htrim
    exact absurd htrim.symm (by simp)
  | cons c rest =>
    rw [hstart] at hline
    exact ⟨blanks, c, rest, hline, hblanks, not_isBlank_head?_trimStart line c (hstart ▸ rfl)⟩

theorem report_eq_iff_complains (h : SetsSlot line slot) :
    (Fault.mk (front.length + 1) (width (line.takeWhile isBlank) + 1) (String.ofList line)).report =
      report ↔ Complains front line report := by
  constructor
  · rintro rfl
    obtain ⟨blanks, c, rest, rfl, hblanks, hc⟩ := h.exists_head
    have htake := (takeWhile_append_stop hblanks (forall_head?_cons hc rest)).1
    exact ⟨rfl, rfl, rfl, rfl, ⟨blanks, c, rest, rfl, hblanks, hc, by rw [Fault.report, htake]⟩, rfl⟩
  · rintro ⟨hcode, hmessage, hoffset, hnumber, ⟨blanks, c, rest, hline, hblanks, hc, hcolumn⟩, hsnippet⟩
    have htake : line.takeWhile isBlank = blanks :=
      hline ▸ (takeWhile_append_stop hblanks (forall_head?_cons hc rest)).1
    obtain ⟨code, message, offset, lineNumber, column, snippet⟩ := report
    cases hcode
    cases hmessage
    cases hoffset
    cases hnumber
    cases hcolumn
    cases hsnippet
    rw [Fault.report, htake]

namespace Requirement

theorem exists_parse_eq_error_iff :
    (∃ fault, parse text apiPrefix ignored = .error fault ∧ fault.report = report) ↔
      ∃ front line, IsFirst (SetsSlot · []) (lines text.toList) front line ∧
        Complains front line report := by
  have hparse : ∀ fault, parse text apiPrefix ignored = .error fault ↔
      slotsFrom 1 (lines text.toList) = .error fault := by
    intro fault
    rw [parse, bind_eq_error_iff]
    simp
  simp only [hparse, slotsFrom_eq_error_iff, Nat.add_comm 1]
  constructor
  · rintro ⟨fault, ⟨front, line, hfirst, rfl⟩, hreport⟩
    exact ⟨front, line, hfirst, (report_eq_iff_complains hfirst.holds).mp hreport⟩
  · rintro ⟨front, line, hfirst, hcomplains⟩
    exact ⟨_, ⟨front, line, hfirst, rfl⟩, (report_eq_iff_complains hfirst.holds).mpr hcomplains⟩

theorem exists_parse_eq_ok_iff :
    (∃ r, parse text apiPrefix ignored = .ok r) ↔
      ∀ line ∈ lines text.toList, ¬ SetsSlot line [] := by
  constructor
  · rintro ⟨r, hr⟩
    obtain ⟨slots, hslots, -⟩ := bind_eq_ok_iff.mp hr
    exact (slotsFrom_eq_ok_iff.mp hslots).1
  · intro hnamed
    have hslots : slotsFrom 1 (lines text.toList) = .ok _ := slotsFrom_eq_ok_iff.mpr ⟨hnamed, rfl⟩
    exact ⟨_, bind_eq_ok_iff.mpr ⟨_, hslots, rfl⟩⟩

/-- A requirement that is read asks for the slots that are set and not ignored. -/
theorem asks_of_parse {r : Requirement} (h : parse text apiPrefix ignored = .ok r) :
    r.Asks apiPrefix ignored {slot | slot ∉ ignored ∧
      ∃ line ∈ lines text.toList, SetsSlot line slot.toList} := by
  refine .header h fun slot => ?_
  simp only [← setterSlot?_eq_some_iff]
  rfl

/-- How a dispatch header is read, whatever its text.

* A line sets one slot at most.
* The header is rejected if and only if some setter has no slot name, and then for the first one: the
  report has the number of its line, the text of the line, and the column of the first character that
  is no blank.  Neither the other lines nor the slots to be ignored make a difference.
* Any other header asks for the slots that its lines set, without those to be ignored, each under the
  name of its function.  It is equal to the requirement of those slots given one by one, its functions
  are in strict order of the bytes of their names, and looking up a function finds its slot and nothing
  else. -/
theorem setters_of_header (text apiPrefix : String) (ignored : List String) :
    let ls := lines text.toList
    let wanted (slot : String) : Prop := slot ∉ ignored ∧ ∃ line ∈ ls, SetsSlot line slot.toList
    (∀ line slot other, SetsSlot line slot → SetsSlot line other → slot = other) ∧
    (∀ report, (∃ fault, parse text apiPrefix ignored = .error fault ∧ fault.report = report) ↔
      ∃ front line, IsFirst (SetsSlot · []) ls front line ∧ Complains front line report) ∧
    ((∃ r, parse text apiPrefix ignored = .ok r) ↔ ∀ line ∈ ls, ¬ SetsSlot line []) ∧
    ∀ r, parse text apiPrefix ignored = .ok r →
      (∀ name slot, (name, slot) ∈ r.entries ↔ wanted slot ∧ name = apiPrefix ++ slot) ∧
      (∀ slots : List String, (∀ slot, slot ∈ slots ↔ wanted slot) → r = ofSlots apiPrefix slots) ∧
      (r.entries.Pairwise fun earlier later => bytes earlier.1 < bytes later.1) ∧
      ∀ name slot, r.slotOf? name = some slot ↔ wanted slot ∧ name = apiPrefix ++ slot := by
  intro ls wanted
  refine ⟨fun line slot other h hother => h.unique hother, fun report => exists_parse_eq_error_iff,
    exists_parse_eq_ok_iff, fun r hr => ?_⟩
  have hasks := asks_of_parse hr
  have hentries : ∀ name slot, (name, slot) ∈ r.entries ↔ wanted slot ∧ name = apiPrefix ++ slot :=
    fun name slot => hasks.mem_entries_iff
  refine ⟨hentries, ?_, ?_, ?_⟩
  · intro slots hslots
    exact hasks.unique (.slots fun slot => (hslots slot).symm)
  · exact r.inOrder.imp fun hlt => bytes_lt_bytes_iff.mpr hlt
  · intro name slot
    rw [slotOf?_eq_some_iff, hentries]

end Requirement

end CallBridge.Dispatch

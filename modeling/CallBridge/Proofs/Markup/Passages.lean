import CallBridge.Proofs.Markup.TextRuns

/-!
# Comments, character data and instructions

Between their delimiters the three are read alike.  A `Passage` has a ground of its own, on
which the scanner holds back only what could begin the closing delimiter, and the reader takes
every other token: character data as text, and the rest without a trace.

* `Passage.reads_text`: the text of a passage;
* `reads_comment`, `reads_cdata` and `reads_instruction`: a passage behind its opening angle.
-/

namespace CallBridge.Markup

/-! ## Passages -/

/-- What stands between two delimiters and holds no markup. -/
inductive Passage where
  | comment
  | cdata
  | instruction

namespace Passage

def ground : Passage → Ground
  | comment => .comment
  | cdata => .cdata
  | instruction => .instruction

def place : Passage → Place
  | comment => .comment
  | cdata => .cdata
  | instruction => .instruction

/-- The delimiter at the end. -/
def close : Passage → Token
  | comment => .commentClose
  | cdata => .cdataClose
  | instruction => .instructionClose

/-- The character that may begin it. -/
def mark : Passage → Char
  | comment => '-'
  | cdata => ']'
  | instruction => '?'

/-- The token of any other character. -/
def token (p : Passage) (c : Char) : Token :=
  match p with
  | instruction => if c = '<' then .tagOpen else Scanner.plainToken c
  | _ => .char c

/-- What may not stand in the text. -/
def stop : Passage → List Char
  | comment => ['-', '-']
  | cdata => [']', ']', '>']
  | instruction => ['?', '>']

/-- What the scanner may hold back. -/
def runs : Passage → List (List Char)
  | comment => [[], ['-']]
  | cdata => [[], [']'], [']', ']']]
  | instruction => [[], ['?']]

def scanner (p : Passage) (held : List Char) : Scanner :=
  ⟨p.ground, .content, held⟩

/-- The view behind some text. -/
def after (p : Passage) (v : View) (text : List Char) : View :=
  match p with
  | cdata => v.addAll (text.map .char)
  | _ => v

/-- Where the passage may stand: character data belongs to an element. -/
def Fits (p : Passage) (v : View) : Prop :=
  match p with
  | cdata => v.frames ≠ []
  | _ => True

variable {v : View} {text held : List Char} {c : Char}

theorem after_append (p : Passage) (v : View) (front text : List Char) :
    p.after v (front ++ text) = p.after (p.after v front) text := by
  cases p with
  | cdata => simp only [after, List.map_append, View.addAll_append]
  | _ => rfl

theorem encoding_after (p : Passage) (v : View) (text : List Char) :
    (p.after v text).encoding = v.encoding := by
  cases p <;> simp [after]

theorem settings_after (p : Passage) (v : View) (text : List Char) :
    (p.after v text).settings = v.settings := by
  cases p <;> simp [after]

theorem Fits.after {p : Passage} (h : p.Fits v) (text : List Char) : p.Fits (p.after v text) := by
  cases p with
  | cdata => exact mt (View.frames_addAll_eq_nil_iff v _).mp h
  | _ => trivial

/-! ## Their text -/

/-- The character that may begin the closing delimiter is held back, or releases another one
like it. -/
theorem exists_step_mark {p : Passage} (hheld : held ∈ p.runs)
    (hfree : ¬ p.stop <:+: held ++ [p.mark]) :
    ∃ tokens held', (p.scanner held).step p.mark = .ok (p.scanner held', tokens) ∧
      held' ∈ p.runs ∧ p.close ∉ tokens := by
  cases p with
  | comment =>
    simp only [runs, List.mem_cons, List.not_mem_nil, or_false] at hheld
    rcases hheld with rfl | rfl
    · exact ⟨[], ['-'], rfl, by decide, by decide⟩
    · exact absurd (List.infix_refl _) hfree
  | cdata =>
    simp only [runs, List.mem_cons, List.not_mem_nil, or_false] at hheld
    rcases hheld with rfl | rfl | rfl
    · exact ⟨[], [']'], rfl, by decide, by decide⟩
    · exact ⟨[], [']', ']'], rfl, by decide, by decide⟩
    · exact ⟨[.char ']'], [']', ']'], rfl, by decide, by decide⟩
  | instruction =>
    simp only [runs, List.mem_cons, List.not_mem_nil, or_false] at hheld
    rcases hheld with rfl | rfl
    · exact ⟨[], ['?'], rfl, by decide, by decide⟩
    · exact ⟨[.char '?'], ['?'], rfl, by decide, by decide⟩

/-- Any other character hands out what is held back and itself, unless it completes the closing
delimiter. -/
theorem step_plain {p : Passage} (hheld : held ∈ p.runs) (hmark : c ≠ p.mark)
    (hfree : ¬ p.stop <:+: held ++ [c]) :
    (p.scanner held).step c = .ok (p.scanner [], held.map .char ++ [p.token c]) := by
  cases p with
  | comment =>
    have hdash : c ≠ '-' := hmark
    simp only [runs, List.mem_cons, List.not_mem_nil, or_false] at hheld
    rcases hheld with rfl | rfl <;>
      simp [scanner, ground, token, Scanner.step, Scanner.release, Scanner.start, Scanner.give,
        Scanner.on, hdash]
  | cdata =>
    have hbracket : c ≠ ']' := hmark
    simp only [runs, List.mem_cons, List.not_mem_nil, or_false] at hheld
    rcases hheld with rfl | rfl | rfl
    · simp [scanner, ground, token, Scanner.step, Scanner.start, Scanner.give, Scanner.on, hbracket]
    · simp [scanner, ground, token, Scanner.step, Scanner.afterBracket, Scanner.release,
        Scanner.start, Scanner.give, Scanner.on, hbracket]
    · have hangle : c ≠ '>' := by
        rintro rfl
        exact hfree (List.infix_refl _)
      simp [scanner, ground, token, Scanner.step, Scanner.afterBrackets, Scanner.release,
        Scanner.start, Scanner.give, Scanner.on, hbracket, hangle]
  | instruction =>
    have hquestion : c ≠ '?' := hmark
    simp only [runs, List.mem_cons, List.not_mem_nil, or_false] at hheld
    rcases hheld with rfl | rfl
    · simp [scanner, ground, token, Scanner.step, Scanner.start, Scanner.give, Scanner.on,
        hquestion]
    · have hangle : c ≠ '>' := by
        rintro rfl
        exact hfree (List.infix_refl _)
      simp [scanner, ground, token, Scanner.step, Scanner.release, Scanner.start, Scanner.give,
        Scanner.on, hquestion, hangle]

theorem token_ne_close (p : Passage) (c : Char) : p.token c ≠ p.close := by
  intro h
  have htext : (p.token c).text = [c] := by
    cases p with
    | instruction =>
      by_cases hopen : c = '<'
      · simp [token, hopen]
      · simp [token, hopen]
    | _ => rfl
  rw [h] at htext
  cases p <;> simp [close, Token.text] at htext

/-- A character that completes nothing which may not stand there hands out no closing
delimiter. -/
theorem exists_step {p : Passage} (hheld : held ∈ p.runs) (hfree : ¬ p.stop <:+: held ++ [c]) :
    ∃ tokens held', (p.scanner held).step c = .ok (p.scanner held', tokens) ∧ held' ∈ p.runs ∧
      p.close ∉ tokens := by
  by_cases hmark : c = p.mark
  · subst hmark
    exact exists_step_mark hheld hfree
  · refine ⟨_, [], step_plain hheld hmark hfree, ?_, ?_⟩
    · cases p <;> exact List.mem_cons_self
    · have hheldTokens : p.close ∉ held.map Token.char := by
        cases p <;> simp [close]
      simpa [hheldTokens] using (token_ne_close p c).symm

/-- Any token but the closing delimiter is text of the passage. -/
theorem accepts {p : Passage} (hfits : p.Fits v) {t : Token} (ht : t ≠ p.close)
    (hchar : ∀ d ∈ t.text, isChar v.settings.revised d = true) (s : Scanner) :
    Accepts (v.on s p.place) [t] ((p.after v t.text).on s p.place) := by
  refine .single fun r hr => ?_
  have hchars : ∀ d, t = .char d → isChar r.settings.revised d = true := by
    rintro d rfl
    rw [hr.settings_eq]
    exact hchar d List.mem_cons_self
  cases p with
  | comment =>
    refine ⟨r, ?_, hr⟩
    rw [Reader.accept, hr.place_eq]
    change r.inComment t = .ok r
    cases t with
    | char d => rw [Reader.inComment, if_pos (hchars d rfl)]
    | commentClose => exact absurd rfl ht
    | _ => rfl
  | cdata =>
    have hwrite := hr.write (hr.place_eq ▸ rfl) hfits t.text
    rw [View.addAll_on] at hwrite
    refine ⟨_, ?_, hwrite⟩
    rw [Reader.accept, hr.place_eq]
    change r.inCdata t = .ok (r.write t.text)
    cases t with
    | char d => rw [Reader.inCdata, if_pos (hchars d rfl), Token.text_char]
    | cdataClose => exact absurd rfl ht
    | _ => rfl
  | instruction =>
    refine ⟨r, ?_, hr⟩
    rw [Reader.accept, hr.place_eq]
    change r.inInstruction t = .ok r
    cases t with
    | char d => rw [Reader.inInstruction, if_pos (hchars d rfl)]
    | instructionClose => exact absurd rfl ht
    | _ => rfl

theorem accepts_all {p : Passage} (hfits : p.Fits v) {ts : List Token} (hts : p.close ∉ ts)
    (hchar : ∀ d ∈ ts.flatMap Token.text, isChar v.settings.revised d = true) (s : Scanner) :
    Accepts (v.on s p.place) ts ((p.after v (ts.flatMap Token.text)).on s p.place) := by
  induction ts generalizing v with
  | nil =>
    have hnil : p.after v [] = v := by cases p <;> rfl
    rw [List.flatMap_nil, hnil]
    exact .nil _
  | cons t ts ih =>
    rw [List.flatMap_cons, List.forall_mem_append] at hchar
    obtain ⟨ht, hrest⟩ := hchar
    have hne : t ≠ p.close := fun h => hts (h ▸ List.mem_cons_self)
    rw [List.flatMap_cons, after_append]
    refine (accepts hfits hne ht s).cons (ih (hfits.after _) (fun h => hts (.tail _ h)) ?_)
    rwa [settings_after]

/-- The readers in a passage behind a text.  Its end may be held back by the scanner. -/
def Inside (p : Passage) (v : View) (text : List Char) (r : Reader) : Prop :=
  ∃ front held, front ++ held = text ∧ held ∈ p.runs ∧
    Shows ((p.after v front).on (p.scanner held) p.place) r

theorem inside_nil {p : Passage} {r : Reader} (h : Shows (v.on (p.scanner []) p.place) r) :
    p.Inside v [] r := by
  refine ⟨[], [], rfl, ?_, ?_⟩
  · cases p <;> exact List.mem_cons_self
  · cases p <;> exact h

/-- One more character of the text. -/
theorem reads_one {p : Passage} (hfits : p.Fits v) (hfree : ¬ p.stop <:+: text ++ [c])
    (hchar : ∀ d ∈ text ++ [c], isChar v.settings.revised d = true) (hholds : v.Holds c) :
    Reads (p.Inside v text) [c] (p.Inside v (text ++ [c])) := by
  rintro r ⟨front, held, rfl, hheld, hr⟩
  rw [List.append_assoc] at hfree hchar
  obtain ⟨tokens, held', hscan, hheld', hclose⟩ :=
    exists_step hheld fun h => hfree (h.trans (List.suffix_append _ _).isInfix)
  have htext : tokens.flatMap Token.text ++ held' = held ++ [c] := Scanner.step_text hscan
  have hchars : ∀ d ∈ tokens.flatMap Token.text,
      isChar (p.after v front).settings.revised d = true := by
    intro d hd
    rw [settings_after]
    refine hchar d (List.mem_append_right _ ?_)
    rw [← htext]
    exact List.mem_append_left _ hd
  have hafter : (p.after v front).Holds c := by
    rw [View.Holds, encoding_after]
    exact hholds
  obtain ⟨r', htake, hr'⟩ :=
    Markup.reads_char hafter hscan (accepts_all (hfits.after front) hclose hchars _) r hr
  rw [← after_append] at hr'
  refine ⟨r', htake, _, held', ?_, hheld', hr'⟩
  rw [List.append_assoc, htext, List.append_assoc]

/-- The text of a passage is read, and some of its end may be held back. -/
theorem reads_text {p : Passage} (hfits : p.Fits v) {cs : List Char}
    (hfree : ¬ p.stop <:+: text ++ cs)
    (hchar : ∀ d ∈ text ++ cs, isChar v.settings.revised d = true) (hholds : ∀ c ∈ cs, v.Holds c) :
    Reads (p.Inside v text) cs (p.Inside v (text ++ cs)) := by
  induction cs generalizing text with
  | nil =>
    rw [List.append_nil]
    exact .nil _
  | cons c cs ih =>
    obtain ⟨hc, hrest⟩ := List.forall_mem_cons.mp hholds
    rw [List.append_cons] at hfree hchar ⊢
    have hfirst : Reads (p.Inside v text) [c] (p.Inside v (text ++ [c])) :=
      reads_one hfits (fun h => hfree (h.trans (List.prefix_append _ _).isInfix))
        (fun d hd => hchar d (List.mem_append_left _ hd)) hc
    exact hfirst.cons (ih hfree hchar hrest)

/-! ## Their ends -/

end Passage

/-- A character that the scanner holds back. -/
theorem reads_held {v : View} {scanner scanner' : Scanner} {place : Place} {c : Char}
    (hc : c.toNat < 0x80) (hscan : scanner.step c = .ok (scanner', [])) :
    Reads (Shows (v.on scanner place)) [c] (Shows (v.on scanner' place)) :=
  reads_char (v.holds_of_ascii hc) hscan (.nil _)

namespace Passage

variable {v : View} {text held : List Char}

theorem accepts_close (p : Passage) (v : View) (s : Scanner) :
    Accepts (v.on s p.place) [p.close] (v.on s .content) := by
  refine .single fun r hr => ?_
  cases p with
  | comment =>
    exact ⟨_, by rw [Reader.accept, hr.place_eq]; rfl, hr.toContent⟩
  | cdata =>
    exact ⟨_, by rw [Reader.accept, hr.place_eq]; rfl, hr.toContent⟩
  | instruction =>
    exact ⟨_, by rw [Reader.accept, hr.place_eq]; rfl, hr.deliver.toContent⟩

/-- The closing delimiter hands out what is held back.  A comment may not end in a dash. -/
theorem reads_close {p : Passage} (hfits : p.Fits v) (hheld : held ∈ p.runs)
    (hdash : p = .comment → held = []) :
    Reads (Shows (v.on (p.scanner held) p.place)) p.close.text
      (Shows ((p.after v held).on (.inside []) .content)) := by
  have hend := p.accepts_close
  have hbracketChar : isChar v.settings.revised ']' = true := by
    cases v.settings.revised <;> rfl
  have hmarkChar : isChar v.settings.revised '?' = true := by
    cases v.settings.revised <;> rfl
  cases p with
  | comment =>
    obtain rfl := hdash rfl
    exact (reads_held (by decide) rfl).cons ((reads_held (by decide) rfl).cons
      (reads_char (v.holds_of_ascii (by decide)) rfl (hend v _)))
  | cdata =>
    have hbracket : ∀ w : View, Fits cdata w → w.settings = v.settings →
        Reads (Shows (w.on (scanner cdata [']', ']']) .cdata)) [']']
          (Shows ((w.addAll [.char ']']).on (scanner cdata [']', ']']) .cdata)) := by
      intro w hw hsettings
      refine reads_char (w.holds_of_ascii (by decide)) rfl
        (accepts hw (by decide) (fun d hd => ?_) _)
      rw [hsettings, List.mem_singleton.mp hd]
      exact hbracketChar
    have hangle : ∀ w : View, Reads (Shows (w.on (scanner cdata [']', ']']) .cdata)) ['>']
        (Shows (w.on (.inside []) .content)) := fun w =>
      reads_char (w.holds_of_ascii (by decide)) rfl (hend w _)
    simp only [runs, List.mem_cons, List.not_mem_nil, or_false] at hheld
    rcases hheld with rfl | rfl | rfl
    · exact (reads_held (by decide) rfl).cons ((reads_held (by decide) rfl).cons (hangle v))
    · exact (reads_held (by decide) rfl).cons ((hbracket v hfits rfl).cons (hangle _))
    · exact (hbracket v hfits rfl).cons ((hbracket _ (hfits.after [']'])
        (View.settings_addAll v _)).cons (hangle _))
  | instruction =>
    simp only [runs, List.mem_cons, List.not_mem_nil, or_false] at hheld
    rcases hheld with rfl | rfl
    · exact (reads_held (by decide) rfl).cons
        (reads_char (v.holds_of_ascii (by decide)) rfl (hend v _))
    · have hmark : Accepts (v.on (scanner instruction ['?']) .instruction) [.char '?']
          (v.on (scanner instruction ['?']) .instruction) :=
        accepts hfits (by decide) (by simpa using hmarkChar) _
      exact (reads_char (v.holds_of_ascii (by decide)) rfl hmark).cons
        (reads_char (v.holds_of_ascii (by decide)) rfl (hend v _))

end Passage

/-! ## Whole passages -/

variable {f : Form} {v : View}

theorem accepts_commentOpen (v : View) (s : Scanner) :
    Accepts (v.on s .content) [.commentOpen] (v.on s .comment) := by
  refine .single fun r hr => ?_
  cases houtside : r.isOutside with
  | true =>
    refine ⟨_, ?_, hr.begin.goto (.inl rfl)⟩
    rw [Reader.accept, hr.place_eq]
    change r.inContent .commentOpen = _
    rw [Reader.inContent, houtside]
    rfl
  | false =>
    refine ⟨_, ?_, hr.goto (.inl rfl)⟩
    rw [Reader.accept, hr.place_eq]
    change r.inContent .commentOpen = _
    rw [Reader.inContent, houtside]
    rfl

/-- A comment is passed over. -/
theorem reads_comment (hform : v.IsOf f) {body : List Char} (hbody : IsComment f body) :
    Reads (Shows (v.on (.inside ['<']) .content))
      ('!' :: '-' :: '-' :: (body ++ Token.commentClose.text))
      (Shows (v.on (.inside []) .content)) := by
  have hopen : Reads (Shows (v.on (.inside ['<']) .content)) ['!', '-', '-']
      (Passage.comment.Inside v []) := by
    have hspelled : Reads (Shows (v.on (.inside ['<']) .content)) ['!', '-', '-']
        (Shows (v.on (Passage.comment.scanner []) .comment)) :=
      (reads_held (by decide) rfl).cons ((reads_held (by decide) rfl).cons
        (reads_char (v.holds_of_ascii (by decide)) rfl (accepts_commentOpen v _)))
    exact hspelled.mono fun r hr => Passage.inside_nil hr
  have hfits : Passage.comment.Fits v := trivial
  have hfree : ¬ Passage.comment.stop <:+: body := fun h =>
    hbody.dashes_free (h.trans (List.prefix_append _ _).isInfix)
  have hread : Reads (Passage.comment.Inside v []) body (Passage.comment.Inside v body) :=
    Passage.reads_text hfits hfree (fun d hd => hform.revised ▸ hbody.isChar d hd)
      fun c hc => hform.holds (hbody.encoded c hc)
  have hclose : Reads (Passage.comment.Inside v body) Token.commentClose.text
      (Shows (v.on (.inside []) .content)) := by
    rintro r ⟨front, held, rfl, hheld, hr⟩
    refine Passage.reads_close hfits hheld (fun _ => ?_) r hr
    have hdash : held ≠ ['-'] := by
      rintro rfl
      exact hbody.dashes_free ⟨front, [], by simp⟩
    simp only [Passage.runs, List.mem_cons, List.not_mem_nil, or_false] at hheld
    exact hheld.resolve_right hdash
  exact hopen.append (hread.append hclose)

/-- Character data becomes text. -/
theorem reads_cdata (hframes : v.frames ≠ []) {text : List Char}
    (hfree : ¬ [']', ']', '>'] <:+: text) (hprintable : ∀ c ∈ text, IsPrintable c) :
    Reads (Shows (v.on (.inside ['<']) .content))
      ('!' :: '[' :: 'C' :: 'D' :: 'A' :: 'T' :: 'A' :: '[' :: (text ++ Token.cdataClose.text))
      (Shows ((v.addAll (text.map .char)).on (.inside []) .content)) := by
  have hfits : Passage.cdata.Fits v := hframes
  have haccept : ∀ s, Accepts (v.on s .content) [.cdataOpen] (v.on s .cdata) := by
    refine fun s => .single fun r hr => ⟨_, ?_, hr.goto (.inl rfl)⟩
    have hinside : r.isOutside = false := hr.isOutside_eq_false hframes
    rw [Reader.accept, hr.place_eq]
    change r.inContent .cdataOpen = _
    rw [Reader.inContent, hinside]
    rfl
  have hopen : Reads (Shows (v.on (.inside ['<']) .content))
      ['!', '[', 'C', 'D', 'A', 'T', 'A', '['] (Passage.cdata.Inside v []) := by
    have hspelled : Reads (Shows (v.on (.inside ['<']) .content))
        ['!', '[', 'C', 'D', 'A', 'T', 'A', '[']
        (Shows (v.on (Passage.cdata.scanner []) .cdata)) :=
      (reads_held (by decide) rfl).cons <| (reads_held (by decide) rfl).cons <|
        (reads_held (by decide) rfl).cons <| (reads_held (by decide) rfl).cons <|
        (reads_held (by decide) rfl).cons <| (reads_held (by decide) rfl).cons <|
        (reads_held (by decide) rfl).cons <|
        reads_char (v.holds_of_ascii (by decide)) rfl (haccept _)
    exact hspelled.mono fun r hr => Passage.inside_nil hr
  have hchar : ∀ d ∈ text, isChar v.settings.revised d = true := fun d hd =>
    (hprintable d hd).isChar _
  have hread : Reads (Passage.cdata.Inside v []) text (Passage.cdata.Inside v text) :=
    Passage.reads_text hfits hfree hchar fun c hc => (hprintable c hc).holds
  have hclose : Reads (Passage.cdata.Inside v text) Token.cdataClose.text
      (Shows ((v.addAll (text.map .char)).on (.inside []) .content)) := by
    rintro r ⟨front, held, rfl, hheld, hr⟩
    rw [List.map_append, View.addAll_append]
    exact Passage.reads_close (hfits.after front) hheld nofun r hr
  exact hopen.append (hread.append hclose)

/-! ## Instructions -/

namespace Scanner

theorem step_instruction {c : Char} (hc : c ∉ ['?', '<', '\'', '"', '>', '=', '&', ';']) :
    (Passage.instruction.scanner []).step c = .ok (Passage.instruction.scanner [], [.char c]) := by
  have hplain : plainToken c = .char c :=
    plainToken_eq_char fun h => hc (List.mem_cons_of_mem _ (List.mem_cons_of_mem _ h))
  simp only [List.mem_cons, List.not_mem_nil, or_false, not_or] at hc
  simp [Passage.scanner, Passage.ground, step, start, give, on, hc, hplain]

end Scanner

theorem accepts_instructionOpen (v : View) (s : Scanner) :
    Accepts (v.on s .content) [.instructionOpen] (v.on s (.target {})) := by
  refine .single fun r hr => ?_
  obtain ⟨hbegun, hrun⟩ := hr.beginMarkup
  refine ⟨_, ?_, hbegun.goto (.inr hrun)⟩
  rw [Reader.accept, hr.place_eq]
  change r.inContent .instructionOpen = _
  exact ite_self (r.beginMarkup.goto (.target {}))

/-- A character of the name of an instruction. -/
theorem Reader.inTarget_name (r : Reader) {w : Word} {c : Char}
    (hclass : (if w.isEmpty then isNameStart c else isNameChar c) = true)
    (hwidth : w.width ≤ maxNameWidth) : r.inTarget w (.char c) = r.goto (.target (w.push c)) := by
  unfold inTarget
  simp only [hclass, if_true, Nat.not_lt.mpr hwidth, if_false]

/-- A blank behind the name of an instruction. -/
theorem Reader.inTarget_blank (r : Reader) (w : Word) {c : Char} (hc : isSpace c = true) :
    r.inTarget w (.char c) =
      if w.toList = ['x', 'm', 'l'] ∧ r.stage = .start then r.goto (.declaration (.gap none))
      else if isReservedTarget w.toList then r.fail .badName
      else r.begin.goto .instruction := by
  unfold inTarget
  simp only [not_isNameStart_of_isSpace hc, not_isNameChar_of_isSpace hc, ite_self,
    Bool.false_eq_true, if_false, hc, if_true]

/-- The opening delimiter and the name of an instruction. -/
theorem reads_target (hform : v.IsOf f) {target : List Char} (htarget : IsTargetName f target) :
    Reads (Shows (v.on (.inside ['<']) .content)) ('?' :: target)
      (Shows (v.on (Passage.instruction.scanner []) (.target (.ofList target)))) := by
  have hopen : Reads (Shows (v.on (.inside ['<']) .content)) ['?']
      (Shows (v.on (Passage.instruction.scanner []) (.target (.ofList [])))) :=
    reads_char (v.holds_of_ascii (by decide)) rfl (accepts_instructionOpen v _)
  have hname : Reads (Shows (v.on (Passage.instruction.scanner []) (.target (.ofList [])))) target
      (Shows (v.on (Passage.instruction.scanner []) (.target (.ofList ([] ++ target))))) := by
    refine reads_word (fun c hc => hform.holds (htarget.encoded c hc))
      (fun c hc => Scanner.step_instruction
        (not_mem_of_isNameChar (by decide) (htarget.isNameChar c hc))) []
      fun front c hfront => .single fun r hr => ?_
    have hclass : (if (Word.ofList front).isEmpty then isNameStart c else isNameChar c) = true := by
      rw [Word.isEmpty_ofList]
      cases front with
      | nil =>
        obtain ⟨rest, hrest⟩ := hfront
        exact htarget.isNameStart c (hrest ▸ rfl)
      | cons d front =>
        exact htarget.isNameChar c (hfront.subset (List.mem_append_right _ List.mem_cons_self))
    have hwidth : (Word.ofList front).width ≤ maxNameWidth := by
      obtain ⟨rest, hrest⟩ := hfront
      have hle := htarget.width_le
      rw [← hrest, List.append_assoc, List.singleton_append,
        List.dropLast_append_of_ne_nil (List.cons_ne_nil c rest), Text.width_append] at hle
      rw [Word.width_ofList]
      omega
    refine ⟨_, ?_, hr.leave rfl⟩
    rw [Reader.accept, hr.place_eq]
    exact r.inTarget_name hclass hwidth
  exact hopen.cons hname

theorem IsTarget.isReserved_eq {target : List Char} (h : IsTarget f target) :
    isReservedTarget target = false := by
  rw [isReservedTarget, beq_eq_false_iff_ne]
  exact h.not_reserved

/-- An instruction is passed over. -/
theorem reads_instruction (hform : v.IsOf f) {text : List Char} (htext : IsInstruction f text) :
    ∃ rest, text = '<' :: rest ∧ Reads (Shows (v.on (.inside ['<']) .content)) rest
      (Shows (v.on (.inside []) .content)) := by
  cases htext with
  | @bare target htarget =>
    refine ⟨_, rfl, (reads_target hform htarget.toIsTargetName).append ?_⟩
    refine (reads_held (by decide) rfl).cons (reads_char (v.holds_of_ascii (by decide)) rfl
      (.single fun r hr => ?_))
    have hne : (Word.ofList target).isEmpty = false := by
      rw [Word.isEmpty_ofList, ← Bool.not_eq_true, List.isEmpty_iff]
      exact htarget.ne_nil
    have haccept : r.accept .instructionClose =
        if r.stage = .start then r.begin.goto .content else r.deliver.goto .content := by
      rw [Reader.accept, hr.place_eq]
      change r.endTarget (.ofList target) = _
      rw [Reader.endTarget, hne, Word.toList_ofList, htarget.isReserved_eq]
      rfl
    rw [haccept]
    split
    · exact ⟨_, rfl, hr.begin.toContent⟩
    · exact ⟨_, rfl, hr.deliver.toContent⟩
  | @data target data blank htarget hblank hdata =>
    have hfits : Passage.instruction.Fits v := trivial
    have hgap : Reads (Shows (v.on (Passage.instruction.scanner []) (.target (.ofList target))))
        [blank] (Passage.instruction.Inside v []) := by
      have hblanks : blank ∉ ['?', '<', '\'', '"', '>', '=', '&', ';'] := by
        rcases eq_of_isSpace hblank with rfl | rfl | rfl | rfl <;> decide
      have hread : Reads (Shows (v.on (Passage.instruction.scanner []) (.target (.ofList target))))
          [blank] (Shows (v.on (Passage.instruction.scanner []) .instruction)) := by
        refine reads_char (holds_of_isSpace hblank) (Scanner.step_instruction hblanks)
          (.single fun r hr => ?_)
        have hbegun := hr.begin
        refine ⟨_, ?_, hbegun.leave rfl⟩
        have hxml : target ≠ ['x', 'm', 'l'] := by
          rintro rfl
          exact htarget.not_reserved rfl
        rw [Reader.accept, hr.place_eq]
        change r.inTarget (.ofList target) (.char blank) = _
        rw [r.inTarget_blank _ hblank, Word.toList_ofList, if_neg fun h => hxml h.1,
          htarget.isReserved_eq]
        rfl
      exact hread.mono fun r hr => Passage.inside_nil hr
    have hread : Reads (Passage.instruction.Inside v []) data
        (Passage.instruction.Inside v data) :=
      Passage.reads_text hfits hdata.close_free (fun d hd => hform.revised ▸ hdata.isChar d hd)
        fun c hc => hform.holds (hdata.encoded c hc)
    have hclose : Reads (Passage.instruction.Inside v data) ['?', '>']
        (Shows (v.on (.inside []) .content)) := by
      rintro r ⟨front, held, rfl, hheld, hr⟩
      exact Passage.reads_close hfits hheld nofun r hr
    exact ⟨_, rfl, (reads_target hform htarget.toIsTargetName).append
      (hgap.cons (hread.append hclose))⟩

end CallBridge.Markup

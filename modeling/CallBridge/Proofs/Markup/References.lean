import CallBridge.Proofs.Markup.Chars

/-!
# References to characters

`reads_reference`: a reference by name or by number is read as its character, in text and in
values alike.
-/

namespace CallBridge.Markup

variable {c d : Char} {ref digits : List Char}

/-! ## Numbers -/

theorem digit?_of_mem_hexadecimal : ∀ d ∈ hexadecimalDigits, digit? 16 d = some (digitValue d) :=
  Text.forall_mem_of_all (by decide)

theorem digit?_of_mem_decimal : ∀ d ∈ decimalDigits, digit? 10 d = some (digitValue d) :=
  Text.forall_mem_of_all (by decide)

theorem numberFrom?_eq_some {base : Nat}
    (hdigits : ∀ d ∈ digits, digit? base d = some (digitValue d)) (n : Nat) :
    numberFrom? base n digits = some (digits.foldl (fun n d => n * base + digitValue d) n) := by
  induction digits generalizing n with
  | nil => rfl
  | cons d digits ih =>
    obtain ⟨hd, hrest⟩ := List.forall_mem_cons.mp hdigits
    rw [numberFrom?, hd, Option.bind_some, ih hrest, List.foldl_cons]

theorem number?_eq_some {base : Nat} (hne : digits ≠ []) (hplus : '+' ∉ digits)
    (hdigits : ∀ d ∈ digits, digit? base d = some (digitValue d)) :
    number? base digits = some (numeralValue base digits) := by
  have hhead : digits.head? ≠ some '+' := fun h => hplus (List.mem_of_mem_head? h)
  simp only [number?, hhead, if_false, List.isEmpty_iff, hne]
  exact numberFrom?_eq_some hdigits 0

theorem numericChar?_eq_some {revised : Bool} {point : Option Nat} (hchar : isChar revised c = true)
    (hpoint : point = some c.toNat) :
    (point.bind fun n =>
      if n.isValidChar ∧ isChar revised (Char.ofNat n) then some (Char.ofNat n) else none) =
      some c := by
  have hvalid : c.toNat.isValidChar := c.valid
  rw [hpoint, Option.bind_some, Char.ofNat_toNat, if_pos ⟨hvalid, hchar⟩]

/-! ## What a reference stands for -/

/-- A reference stands for its character in every document that may hold the character. -/
theorem Refers.expand_eq (h : Refers c ref) {s : Settings} (hchar : isChar s.revised c = true) :
    s.expand ref = .ok (.char c) := by
  cases h with
  | lessThan => rfl
  | greaterThan => rfl
  | ampersand => rfl
  | apostrophe => rfl
  | quotation => rfl
  | @decimal _ digits hne hdigits hvalue =>
    have hnumber : number? 10 digits = some c.toNat := by
      rw [← hvalue]
      exact number?_eq_some hne (fun h => absurd (hdigits _ h) (by decide))
        fun d hd => digit?_of_mem_decimal d (hdigits d hd)
    have hnumeric : numericChar? s.revised digits = some c := by
      rw [numericChar?]
      · exact numericChar?_eq_some hchar hnumber
      · rintro rest rfl
        exact absurd (hdigits 'x' List.mem_cons_self) (by decide)
    simp [Settings.expand, predefined?, hnumeric]
  | @hexadecimal _ digits hne hdigits hvalue =>
    have hnumber : number? 16 digits = some c.toNat := by
      rw [← hvalue]
      exact number?_eq_some hne (fun h => absurd (hdigits _ h) (by decide))
        fun d hd => digit?_of_mem_hexadecimal d (hdigits d hd)
    have hnumeric : numericChar? s.revised ('x' :: digits) = some c :=
      numericChar?_eq_some hchar hnumber
    simp [Settings.expand, predefined?, hnumeric]

/-- A name behind an ampersand begins with a letter or a number sign, and goes on with
letters and digits. -/
theorem Refers.exists_cons (h : Refers c ref) :
    ∃ first rest, ref = first :: rest ∧ (first = '#' ∨ first.isAlpha = true) ∧
      ∀ d ∈ rest, d.isAlphanum = true := by
  have hhex : ∀ d ∈ hexadecimalDigits, d.isAlphanum = true := Text.forall_mem_of_all (by decide)
  have hdec : ∀ d ∈ decimalDigits, d.isAlphanum = true := Text.forall_mem_of_all (by decide)
  cases h with
  | lessThan => exact ⟨_, _, rfl, .inr (by decide), Text.forall_mem_of_all (by decide)⟩
  | greaterThan => exact ⟨_, _, rfl, .inr (by decide), Text.forall_mem_of_all (by decide)⟩
  | ampersand => exact ⟨_, _, rfl, .inr (by decide), Text.forall_mem_of_all (by decide)⟩
  | apostrophe => exact ⟨_, _, rfl, .inr (by decide), Text.forall_mem_of_all (by decide)⟩
  | quotation => exact ⟨_, _, rfl, .inr (by decide), Text.forall_mem_of_all (by decide)⟩
  | decimal _ hdigits _ => exact ⟨_, _, rfl, .inl rfl, fun d hd => hdec d (hdigits d hd)⟩
  | hexadecimal _ hdigits _ =>
    exact ⟨_, _, rfl, .inl rfl,
      List.forall_mem_cons.mpr ⟨by decide, fun d hd => hhex d (hdigits d hd)⟩⟩

/-- Every character of a reference is taken by the reader as one more of its name. -/
theorem Refers.extends (h : Refers c ref) {front : List Char} (hfront : front ++ [d] <+: ref) :
    extendsReference (.ofList front) d = true := by
  obtain ⟨first, rest, rfl, hfirst, hrest⟩ := h.exists_cons
  rw [extendsReference, Word.isEmpty_ofList]
  cases front with
  | nil =>
    obtain rfl : d = first := by simpa using hfront
    rcases hfirst with rfl | halpha
    · rfl
    · simp [isNameStart_of_isAlpha halpha]
  | cons e front =>
    have hmem : d ∈ rest := by
      have : front ++ [d] <+: rest := by simpa using (List.cons_prefix_cons.mp hfront).2
      exact this.subset (List.mem_append_right _ List.mem_cons_self)
    simpa using isNameChar_of_isAlphanum (hrest d hmem)

/-! ## Reading a reference -/

theorem Settings.referenceStep_char {s : Settings} {w : Word} (hd : extendsReference w d = true) :
    s.referenceStep w (.char d) = .ok (.more (w.push d)) :=
  if_pos hd

theorem Settings.referenceStep_semicolon {s : Settings} {w : Word} {e : Expansion}
    (hw : s.expand w.toList = .ok e) : s.referenceStep w .semicolon = .ok (.done e) := by
  unfold referenceStep
  simp only [hw]

/-- A reference is read as its character, where a place takes the characters of the name and
what the name stands for. -/
theorem reads_reference (h : Refers c ref) (hchar : IsPrintable c) {v v' : View}
    {place : Word → Place}
    (hmore : ∀ w d, extendsReference w d = true →
      Accepts (v.on (.inside []) (place w)) [.char d] (v.on (.inside []) (place (w.push d))))
    (hdone : ∀ w : Word, v.settings.expand w.toList = .ok (.char c) →
      Accepts (v.on (.inside []) (place w)) [.semicolon] v') :
    Reads (Shows (v.on (.inside []) (place {}))) (ref ++ [';']) (Shows v') := by
  have hplain : ∀ d ∈ ref, v.Holds d ∧ d ∉ ['<', '/', ']', '>'] ∧
      d ∉ ['\'', '"', '>', '=', '&', ';'] := by
    obtain ⟨first, rest, rfl, hfirst, hrest⟩ := h.exists_cons
    have halnum : ∀ d, d.isAlphanum = true → v.Holds d ∧ d ∉ ['<', '/', ']', '>'] ∧
        d ∉ ['\'', '"', '>', '=', '&', ';'] := fun d hd =>
      ⟨v.holds_of_ascii (toNat_lt_of_isAlphanum hd), not_mem_of_isAlphanum (by decide) hd,
        not_mem_of_isAlphanum (by decide) hd⟩
    refine List.forall_mem_cons.mpr ⟨?_, fun d hd => halnum d (hrest d hd)⟩
    rcases hfirst with rfl | halpha
    · exact ⟨v.holds_of_ascii (by decide), by decide, by decide⟩
    · exact halnum first (by simp [Char.isAlphanum, halpha])
  have hempty : [] ∈ heldRuns := List.mem_cons_self
  have hname : Reads (Shows (v.on (.inside []) (place (.ofList [])))) ref
      (Shows (v.on (.inside []) (place (.ofList ([] ++ ref))))) :=
    reads_word (fun d hd => (hplain d hd).1)
      (fun d hd => by
        rw [Scanner.step_plain hempty (hplain d hd).2.1,
          Scanner.plainToken_eq_char (hplain d hd).2.2]
        rfl) []
      fun front d hfront => hmore _ d (h.extends hfront)
  have hexpand : v.settings.expand (Word.ofList ref).toList = .ok (.char c) := by
    rw [Word.toList_ofList]
    refine h.expand_eq ?_
    have hliteral := isLiteral_of_printable v.settings.revised hchar.low hchar.high
    exact (Bool.and_eq_true_iff.mp hliteral).1
  have hsemicolon : Reads (Shows (v.on (.inside []) (place (.ofList ref)))) [';'] (Shows v') :=
    reads_char (v.holds_of_ascii (by decide)) (Scanner.step_plain hempty (by decide))
      (hdone _ hexpand)
  exact hname.append hsemicolon

end CallBridge.Markup

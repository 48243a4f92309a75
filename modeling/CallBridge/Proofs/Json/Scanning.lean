import CallBridge.Config.Decode
import CallBridge.Proofs.Json.Grammar
import CallBridge.Proofs.Outcome

/-!
# Scanning what has been written

What each scanning step makes of a text that the grammar writes, whatever stands behind it.

* `scanString_of_spellsChars`: a string is read as the characters that it spells;
* `Writes.exists_head`: the first character of a value tells its kind (`Value.Begins`);
* `nextElement_separated` and `nextKey_separated`: white space and the comma before an element or
  a key are passed over.
-/

namespace CallBridge.Json

open Text

variable {c : Char} {cs gap rest s : List Char} {v : Value}

/-! ## White space -/

theorem isSpace_of_isGap (h : IsGap gap) : ∀ c ∈ gap, isSpace c = true := by
  have hall : ∀ c ∈ [' ', '\t', '\n', '\r'], isSpace c = true := forall_mem_of_all (by decide)
  intro c hc
  exact hall c (h c hc)

/-- White space at the front makes no difference to what follows it. -/
theorem skipSpace_append (h : IsGap gap) (rest : List Char) :
    skipSpace (gap ++ rest) = skipSpace rest :=
  List.dropWhile_append_of_pos (isSpace_of_isGap h)

theorem skipSpace_cons (h : isSpace c = false) (rest : List Char) :
    skipSpace (c :: rest) = c :: rest :=
  List.dropWhile_cons_of_neg (by simp [h])

theorem skipSpace_gap_cons (hgap : IsGap gap) (h : isSpace c = false) (rest : List Char) :
    skipSpace (gap ++ c :: rest) = c :: rest := by
  rw [skipSpace_append hgap, skipSpace_cons h]

/-! ## Strings -/

theorem hexValue?_of_mem : ∀ p ∈ hexadecimalDigits, hexValue? p.1 = some p.2 := by
  decide

theorem escaped?_of_mem : ∀ p ∈ shortEscapes, escaped? p.1 = some p.2 := by
  decide

theorem escaped?_u : escaped? 'u' = none := by
  decide

theorem scanUnit_of_spellsUnit {n : Nat} {digits : List Char} (h : SpellsUnit n digits)
    (rest : List Char) : scanUnit (digits ++ rest) = .ok (n, rest) := by
  obtain ⟨ha, hb, hc, hd⟩ := h
  rename_i a b c d i j k l
  have hunit : hexUnit? a b c d = some (((i * 16 + j) * 16 + k) * 16 + l) := by
    rw [hexUnit?, hexValue?_of_mem _ ha, hexValue?_of_mem _ hb, hexValue?_of_mem _ hc,
      hexValue?_of_mem _ hd]
    rfl
  show scanUnit (a :: b :: c :: d :: rest) = _
  rw [scanUnit, hunit]

theorem not_surrogate (c : Char) : isLeading c.toNat = false ∧ isTrailing c.toNat = false := by
  have hvalid : c.toNat < 0xd800 ∨ 0xdfff < c.toNat ∧ c.toNat < 0x110000 := c.valid
  unfold isLeading isTrailing
  rw [← Bool.decide_and, ← Bool.decide_and, decide_eq_false_iff_not, decide_eq_false_iff_not]
  omega

theorem scanCode_of_unit {digits : List Char} (h : SpellsUnit c.toNat digits) (rest : List Char) :
    scanCode (digits ++ rest) = .ok (c, rest) := by
  obtain ⟨hleading, htrailing⟩ := not_surrogate c
  rw [scanCode, scanUnit_of_spellsUnit h]
  simp only [hleading, htrailing, Bool.false_eq_true, if_false, Char.ofNat_toNat]

theorem scanCode_of_pair {leading trailing : Nat} {first second : List Char}
    (hleading : 0xd800 ≤ leading ∧ leading ≤ 0xdbff)
    (htrailing : 0xdc00 ≤ trailing ∧ trailing ≤ 0xdfff)
    (hc : c.toNat = 0x10000 + (leading - 0xd800) * 0x400 + (trailing - 0xdc00))
    (hfirst : SpellsUnit leading first) (hsecond : SpellsUnit trailing second) (rest : List Char) :
    scanCode (first ++ '\\' :: 'u' :: (second ++ rest)) = .ok (c, rest) := by
  have hisLeading : isLeading leading = true := by simp [isLeading, hleading]
  have hnotTrailing : isTrailing leading = false := by
    rw [isTrailing, ← Bool.decide_and, decide_eq_false_iff_not]
    omega
  have hisTrailing : isTrailing trailing = true := by simp [isTrailing, htrailing]
  have hpair : pairChar leading trailing = c := by rw [pairChar, ← hc, Char.ofNat_toNat]
  rw [scanCode, scanUnit_of_spellsUnit hfirst]
  simp only [hisLeading, hnotTrailing, Bool.false_eq_true, if_false, if_true,
    scanUnit_of_spellsUnit hsecond, hisTrailing, hpair]

/-- An escape is read as the character it stands for. -/
theorem scanString_escape {written : List Char} (h : scanEscape written = .ok (c, cs))
    (hcs : scanString cs = .ok (s, rest)) :
    scanString ('\\' :: written) = .ok (c :: s, rest) := by
  rw [scanString, if_neg (by decide), if_pos rfl]
  split
  · rename_i problem hproblem
    rw [h] at hproblem
    contradiction
  · rename_i d more hscan
    obtain ⟨rfl, rfl⟩ := Prod.mk.inj (Except.ok.inj (h.symm.trans hscan))
    rw [hcs]

theorem scanString_of_spellsChar {written : List Char} (h : SpellsChar c written)
    (hcs : scanString cs = .ok (s, rest)) : scanString (written ++ cs) = .ok (c :: s, rest) := by
  cases h with
  | plain hlow hquote hbackslash =>
    have hlow : ¬ c.toNat < 0x20 := by omega
    rw [List.singleton_append, scanString, if_neg hquote, if_neg hbackslash, if_neg hlow, hcs]
  | @short letter hletter =>
    have hescape : scanEscape (letter :: cs) = .ok (c, cs) := by
      rw [scanEscape, escaped?_of_mem _ hletter]
    exact scanString_escape hescape hcs
  | @unit digits hdigits =>
    have hescape : scanEscape ('u' :: (digits ++ cs)) = .ok (c, cs) := by
      rw [scanEscape, escaped?_u]
      exact scanCode_of_unit hdigits cs
    exact scanString_escape hescape hcs
  | @pair leading trailing first second hleading htrailing hc hfirst hsecond =>
    have hescape : scanEscape ('u' :: (first ++ '\\' :: 'u' :: second ++ cs)) = .ok (c, cs) := by
      rw [scanEscape, escaped?_u, List.append_assoc]
      exact scanCode_of_pair hleading htrailing hc hfirst hsecond cs
    exact scanString_escape hescape hcs

/-- A string is read as the characters that it spells. -/
theorem scanString_of_spellsChars (h : SpellsChars s cs) (rest : List Char) :
    scanString (cs ++ '"' :: rest) = .ok (s, rest) := by
  induction h with
  | nil => rw [List.nil_append, scanString, if_pos rfl]
  | cons hc _ ih =>
    rw [List.append_assoc]
    exact scanString_of_spellsChar hc ih

/-! ## The first character of a value -/

/-- The characters that a value of a kind can begin with. -/
def Value.Begins : Value → Char → Prop
  | .null, c => c = 'n'
  | .bool value, c => c = if value then 't' else 'f'
  | .number _, c => c = '-' ∨ c.isDigit = true
  | .string _, c => c = '"'
  | .array _, c => c = '['
  | .object _, c => c = '\x7b'

theorem IsNumber.exists_head (h : IsNumber cs) :
    ∃ c more, cs = c :: more ∧ (c = '-' ∨ c.isDigit = true) := by
  obtain ⟨hsign, hwhole, -, -⟩ := h
  obtain ⟨digit, digits, hcons⟩ := List.exists_cons_of_ne_nil hwhole.ne_nil
  have hdigit := hwhole.digits digit (hcons ▸ List.mem_cons_self)
  rcases List.mem_cons.mp hsign with rfl | hminus
  · exact ⟨digit, _, by rw [hcons]; rfl, .inr hdigit⟩
  · rw [List.mem_singleton.mp hminus]
    exact ⟨'-', _, rfl, .inl rfl⟩

/-- The first character of a value tells its kind. -/
theorem Writes.exists_head (h : Writes v cs) : ∃ c more, cs = c :: more ∧ v.Begins c := by
  cases h with
  | null => exact ⟨_, _, rfl, rfl⟩
  | true => exact ⟨_, _, rfl, rfl⟩
  | false => exact ⟨_, _, rfl, rfl⟩
  | number h => exact h.exists_head
  | string h =>
    obtain ⟨h⟩ := h
    exact ⟨_, _, rfl, rfl⟩
  | emptyArray => exact ⟨_, _, rfl, rfl⟩
  | array => exact ⟨_, _, rfl, rfl⟩
  | emptyObject => exact ⟨_, _, rfl, rfl⟩
  | object => exact ⟨_, _, rfl, rfl⟩

/-- No value begins with white space or with the bracket that ends an array. -/
theorem Value.Begins.not_mem (h : v.Begins c) : c ∉ [' ', '\t', '\n', '\r', ']'] := by
  cases v with
  | null => rw [show c = 'n' from h]; decide
  | bool value =>
    cases value with
    | true => rw [show c = 't' from h]; decide
    | false => rw [show c = 'f' from h]; decide
  | number numeral =>
    have hall : ∀ d ∈ [' ', '\t', '\n', '\r', ']'], d ≠ '-' ∧ ¬ d.isDigit = true :=
      forall_mem_of_all (by decide)
    intro hmem
    exact h.elim (hall c hmem).1 (hall c hmem).2
  | string s => rw [show c = '"' from h]; decide
  | array vs => rw [show c = '[' from h]; decide
  | object members => rw [show c = '\x7b' from h]; decide

theorem Value.Begins.not_isSpace (h : v.Begins c) : isSpace c = false := by
  have hmem := h.not_mem
  simp only [List.mem_cons, List.not_mem_nil, not_or] at hmem
  simp [isSpace, hmem]

theorem Value.Begins.ne_bracket (h : v.Begins c) : c ≠ ']' := by
  rintro rfl
  exact h.not_mem (by decide)

theorem Value.Begins.exists_string (h : v.Begins '"') : ∃ s, v = .string s := by
  cases v with
  | string s => exact ⟨s, rfl⟩
  | bool value => cases value <;> simp [Value.Begins] at h
  | number numeral => exact absurd (h.resolve_left (by decide)) (by decide)
  | _ => simp [Value.Begins] at h

theorem Value.Begins.exists_array (h : v.Begins '[') : ∃ vs, v = .array vs := by
  cases v with
  | array vs => exact ⟨vs, rfl⟩
  | bool value => cases value <;> simp [Value.Begins] at h
  | number numeral => exact absurd (h.resolve_left (by decide)) (by decide)
  | _ => simp [Value.Begins] at h

/-! ## Tokens -/

/-- A text that is read behind others: a comma stands before it, unless it is the first. -/
def separated (first : Bool) (cs : List Char) : List Char :=
  if first then cs else ',' :: cs

theorem nextElement_close (hgap : IsGap gap) (first : Bool) (rest : List Char) :
    nextElement first (gap ++ ']' :: rest) = .ok (.inr rest) := by
  rw [nextElement, skipSpace_gap_cons hgap (by decide)]
  rfl

/-- White space and the comma before an element are passed over. -/
theorem nextElement_separated {before : List Char} (hgap : IsGap gap) (hbefore : IsGap before)
    (h : Writes v cs) (first : Bool) (rest : List Char) :
    nextElement first (gap ++ separated first (before ++ (cs ++ rest))) =
      .ok (.inl (cs ++ rest)) := by
  obtain ⟨c, more, rfl, hbegins⟩ := h.exists_head
  have hhead : skipSpace (before ++ (c :: more ++ rest)) = c :: (more ++ rest) :=
    skipSpace_gap_cons hbefore hbegins.not_isSpace _
  rw [nextElement, skipSpace_append hgap]
  cases first with
  | true =>
    rw [separated, if_pos rfl, hhead]
    simp only [if_neg hbegins.ne_bracket, if_true]
    rfl
  | false =>
    rw [separated, if_neg Bool.false_ne_true, skipSpace_cons (by decide)]
    simp only [hhead, if_neg hbegins.ne_bracket]
    rfl

theorem nextKey_close (hgap : IsGap gap) (first : Bool) (rest : List Char) :
    nextKey first (gap ++ '\x7d' :: rest) = .ok (.inr rest) := by
  rw [nextKey, skipSpace_gap_cons hgap (by decide)]
  rfl

/-- White space, the comma and the quote before a key are passed over. -/
theorem nextKey_separated {before : List Char} (hgap : IsGap gap) (hbefore : IsGap before)
    (first : Bool) (rest : List Char) :
    nextKey first (gap ++ separated first (before ++ '"' :: rest)) = .ok (.inl rest) := by
  have hhead : skipSpace (before ++ '"' :: rest) = '"' :: rest :=
    skipSpace_gap_cons hbefore (by decide) _
  rw [nextKey, skipSpace_append hgap]
  cases first with
  | true =>
    rw [separated, if_pos rfl, hhead]
    rfl
  | false =>
    rw [separated, if_neg Bool.false_ne_true, skipSpace_cons (by decide)]
    simp only [hhead]
    rfl

theorem readColon_gap (hgap : IsGap gap) (rest : List Char) :
    readColon (gap ++ ':' :: rest) = .ok rest := by
  rw [readColon, skipSpace_gap_cons hgap (by decide)]
  rfl

/-! ## Strings and arrays of strings -/

/-- A value is read as a string if it is one. -/
theorem readString_eq_ok_iff (hgap : IsGap gap) (h : Writes v cs) {text : String}
    {tail : List Char} :
    readString (gap ++ (cs ++ rest)) = .ok (text, tail) ↔ v = .string text ∧ tail = rest := by
  obtain ⟨c, more, rfl, hbegins⟩ := h.exists_head
  rw [readString, List.cons_append, skipSpace_gap_cons hgap hbegins.not_isSpace]
  -- A value that begins with a quote is a string, and every other one is refused at once.
  by_cases hquote : c = '"'
  · subst hquote
    obtain ⟨s, rfl⟩ := hbegins.exists_string
    have hscan : scanString (more ++ rest) = .ok (s.toList, rest) := by
      cases h with
      | string h =>
        obtain ⟨h⟩ := h
        rw [List.append_assoc]
        exact scanString_of_spellsChars h rest
    simp only [hscan, String.ofList_toList, Except.ok.injEq, Prod.mk.injEq, Value.string.injEq,
      eq_comm]
  · have hother : v ≠ .string text := by
      rintro rfl
      exact hquote hbegins
    split
    · rename_i heq
      exact absurd (List.cons.inj heq).1 hquote
    · simp [hother]

theorem readStringsFrom_eq (first : Bool) (cs : List Char) :
    readStringsFrom first cs = (nextElement first cs >>= fun
      | .inr rest => .ok ([], rest)
      | .inl element => readString element >>= fun (s, rest) =>
        readStringsFrom false rest >>= fun (ss, rest) => .ok (s :: ss, rest)) := by
  rw [readStringsFrom]
  split
  · rename_i hnext; rw [hnext]; rfl
  · rename_i hnext; rw [hnext]; rfl
  · rename_i element hnext
    split
    · rename_i hread
      simp only [hnext, hread, ok_bind]
      rfl
    · rename_i s rest hread
      simp only [hnext, hread, ok_bind]
      cases readStringsFrom false rest <;> rfl

theorem readStringsFrom_close (hgap : IsGap gap) (first : Bool) (rest : List Char) :
    readStringsFrom first (gap ++ ']' :: rest) = .ok ([], rest) := by
  rw [readStringsFrom_eq, nextElement_close hgap]
  rfl

/-- An element and the rest of an array are read as strings if both are. -/
theorem readStringsFrom_separated {before more : List Char} (hgap : IsGap gap)
    (hbefore : IsGap before) (h : Writes v cs) (first : Bool) {ss : List String}
    {tail : List Char} :
    readStringsFrom first (gap ++ separated first (before ++ (cs ++ more))) = .ok (ss, tail) ↔
      ∃ s rest, v = .string s ∧ ss = s :: rest ∧ readStringsFrom false more = .ok (rest, tail) := by
  have hread : ∀ s behind, readString (cs ++ more) = .ok (s, behind) ↔
      v = .string s ∧ behind = more :=
    fun s behind => readString_eq_ok_iff (List.forall_mem_nil _) h
  rw [readStringsFrom_eq, nextElement_separated hgap hbefore h, ok_bind]
  constructor
  · intro hok
    obtain ⟨⟨s, behind⟩, hs, hmore⟩ := bind_eq_ok_iff.mp hok
    obtain ⟨hv, rfl⟩ := (hread s behind).mp hs
    obtain ⟨⟨rest, last⟩, hrest, hend⟩ := bind_eq_ok_iff.mp hmore
    obtain ⟨rfl, rfl⟩ := Prod.mk.inj (Except.ok.inj hend)
    exact ⟨s, rest, hv, rfl, hrest⟩
  · rintro ⟨s, rest, hv, rfl, hrest⟩
    have hs := (hread s more).mpr ⟨hv, rfl⟩
    exact bind_eq_ok_iff.mpr ⟨(s, more), hs, bind_eq_ok_iff.mpr ⟨(rest, tail), hrest, rfl⟩⟩

/-- The elements of an array are read as strings if they all are. -/
theorem readStringsFrom_eq_ok_iff {vs : List Value} (h : WritesElements vs cs) (hgap : IsGap gap)
    (first : Bool) {ss : List String} {tail : List Char} :
    readStringsFrom first (gap ++ separated first (cs ++ ']' :: rest)) = .ok (ss, tail) ↔
      vs = ss.map .string ∧ tail = rest := by
  induction vs generalizing cs gap first ss with
  | nil => cases h
  | cons v vs ih =>
    cases h with
    | last h =>
      obtain ⟨hbefore, h, hafter⟩ := h
      rw [List.append_assoc, List.append_assoc, readStringsFrom_separated hgap hbefore h,
        readStringsFrom_close hafter]
      constructor
      · rintro ⟨s, rest, rfl, rfl, hok⟩
        obtain ⟨rfl, rfl⟩ := Prod.mk.inj (Except.ok.inj hok)
        exact ⟨rfl, rfl⟩
      · rintro ⟨hvs, rfl⟩
        obtain ⟨s, ss, rfl, rfl, hnil⟩ := List.map_eq_cons_iff.mp hvs.symm
        exact ⟨s, ss, rfl, rfl, by rw [List.map_eq_nil_iff.mp hnil]⟩
    | @cons _ _ _ more h hrest =>
      obtain ⟨hbefore, h, hafter⟩ := h
      rename_i after
      have ih : ∀ ss,
          readStringsFrom false (after ++ ',' :: (more ++ ']' :: rest)) = .ok (ss, tail) ↔
            vs = ss.map .string ∧ tail = rest := fun ss => ih hrest hafter false
      rw [List.append_assoc, List.append_assoc, List.append_assoc,
        readStringsFrom_separated hgap hbefore h]
      constructor
      · rintro ⟨s, ss, rfl, rfl, hok⟩
        obtain ⟨rfl, htail⟩ := (ih ss).mp hok
        exact ⟨rfl, htail⟩
      · rintro ⟨hvs, rfl⟩
        obtain ⟨s, ss, rfl, rfl, hrest⟩ := List.map_eq_cons_iff.mp hvs.symm
        exact ⟨s, ss, rfl, rfl, (ih ss).mpr ⟨hrest.symm, rfl⟩⟩

/-- A value is read as an array of strings if it is one. -/
theorem readStrings_eq_ok_iff (hgap : IsGap gap) (h : Writes v cs) {ss : List String}
    {tail : List Char} :
    readStrings (gap ++ (cs ++ rest)) = .ok (ss, tail) ↔
      v = .array (ss.map .string) ∧ tail = rest := by
  obtain ⟨c, more, rfl, hbegins⟩ := h.exists_head
  rw [readStrings, List.cons_append, skipSpace_gap_cons hgap hbegins.not_isSpace]
  by_cases hbracket : c = '['
  · subst hbracket
    obtain ⟨vs, rfl⟩ := hbegins.exists_array
    rw [Value.array.injEq]
    cases h with
    | emptyArray hinner =>
      rw [List.append_assoc, List.singleton_append]
      show readStringsFrom true _ = _ ↔ _
      rw [readStringsFrom_close hinner]
      simp [eq_comm]
    | array helements =>
      rw [List.append_assoc]
      exact readStringsFrom_eq_ok_iff helements (List.forall_mem_nil _) true
  · have hother : v ≠ .array (ss.map .string) := by
      rintro rfl
      exact hbracket hbegins
    split
    · rename_i heq
      exact absurd (List.cons.inj heq).1 hbracket
    · simp [hother]

end CallBridge.Json

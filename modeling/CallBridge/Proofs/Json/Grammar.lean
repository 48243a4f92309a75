import CallBridge.Proofs.Text.Classes

/-!
# JSON texts

The ways to write a value as a JSON text (RFC 8259): any white space between the tokens, any
escapes in strings, and members in any order.  A number is kept as it is written.  A string is
one of Unicode characters, so none of its escapes is half a surrogate pair.

* `WritesString`: the ways to write a string, character by character (`SpellsChar`);
* `Writes`: the ways to write a value;
* `WritesText`: the ways to write a whole text;
* `exists_writesText_object`: an object can be written if its values can.
-/

namespace CallBridge.Json

open Text

/-- A value of a JSON text.  The members of an object stand in the order of the text. -/
inductive Value where
  | null
  | bool (value : Bool)
  | number (numeral : List Char)
  | string (text : String)
  | array (elements : List Value)
  | object (members : List (String × Value))

/-- White space between tokens. -/
def IsGap (cs : List Char) : Prop :=
  ∀ c ∈ cs, c ∈ [' ', '\t', '\n', '\r']

/-! ## Numbers -/

/-- One digit or more. -/
structure IsDigits (cs : List Char) : Prop where
  ne_nil : cs ≠ []
  digits : ∀ c ∈ cs, c.isDigit = true

/-- The digits before the point: a zero alone, or digits that begin with no zero. -/
structure IsWhole (cs : List Char) : Prop extends IsDigits cs where
  zero_alone : cs.head? = some '0' → cs = ['0']

/-- A point and digits behind it, or nothing. -/
inductive IsFraction : List Char → Prop where
  | none : IsFraction []
  | digits {cs : List Char} (h : IsDigits cs) : IsFraction ('.' :: cs)

/-- A power of ten, or nothing. -/
inductive IsExponent : List Char → Prop where
  | none : IsExponent []
  | digits {letter : Char} {sign cs : List Char} (hletter : letter ∈ ['e', 'E'])
      (hsign : sign ∈ [[], ['+'], ['-']]) (h : IsDigits cs) :
      IsExponent (letter :: (sign ++ cs))

/-- A number as it is written. -/
inductive IsNumber : List Char → Prop where
  | parts {sign whole fraction exponent : List Char} (hsign : sign ∈ [[], ['-']])
      (hwhole : IsWhole whole) (hfraction : IsFraction fraction)
      (hexponent : IsExponent exponent) :
      IsNumber (sign ++ (whole ++ (fraction ++ exponent)))

/-! ## Strings -/

/-- The escapes of one letter, with the characters they stand for. -/
def shortEscapes : List (Char × Char) := [
  ('"', '"'), ('\\', '\\'), ('/', '/'), ('b', '\x08'), ('f', '\x0c'), ('n', '\n'), ('r', '\r'),
  ('t', '\t')]

/-- The hexadecimal digits, in both cases, with their values. -/
def hexadecimalDigits : List (Char × Nat) :=
  "0123456789abcdef".toList.zipIdx ++ "ABCDEF".toList.zipIdx 10

/-- The ways to spell a number of 16 bits with four hexadecimal digits. -/
inductive SpellsUnit : Nat → List Char → Prop where
  | digits {a b c d : Char} {i j k l : Nat} (ha : (a, i) ∈ hexadecimalDigits)
      (hb : (b, j) ∈ hexadecimalDigits) (hc : (c, k) ∈ hexadecimalDigits)
      (hd : (d, l) ∈ hexadecimalDigits) :
      SpellsUnit (((i * 16 + j) * 16 + k) * 16 + l) [a, b, c, d]

/-- The ways to spell a character in a string: as it is, or escaped by a letter, by its code or by
a surrogate pair. -/
inductive SpellsChar (c : Char) : List Char → Prop where
  | plain (hlow : 0x20 ≤ c.toNat) (hquote : c ≠ '"') (hbackslash : c ≠ '\\') : SpellsChar c [c]
  | short {letter : Char} (hletter : (letter, c) ∈ shortEscapes) : SpellsChar c ['\\', letter]
  | unit {digits : List Char} (hdigits : SpellsUnit c.toNat digits) :
      SpellsChar c ('\\' :: 'u' :: digits)
  | pair {leading trailing : Nat} {first second : List Char}
      (hleading : 0xd800 ≤ leading ∧ leading ≤ 0xdbff)
      (htrailing : 0xdc00 ≤ trailing ∧ trailing ≤ 0xdfff)
      (hc : c.toNat = 0x10000 + (leading - 0xd800) * 0x400 + (trailing - 0xdc00))
      (hfirst : SpellsUnit leading first) (hsecond : SpellsUnit trailing second) :
      SpellsChar c ('\\' :: 'u' :: (first ++ '\\' :: 'u' :: second))

/-- The ways to spell characters in a row. -/
inductive SpellsChars : List Char → List Char → Prop where
  | nil : SpellsChars [] []
  | cons {c : Char} {s written cs : List Char} (hc : SpellsChar c written)
      (rest : SpellsChars s cs) : SpellsChars (c :: s) (written ++ cs)

/-- The ways to write a string, in quotes. -/
inductive WritesString (s : String) : List Char → Prop where
  | quoted {cs : List Char} (h : SpellsChars s.toList cs) : WritesString s ('"' :: (cs ++ ['"']))

/-! ## Values -/

mutual

/-- The ways to write a value. -/
inductive Writes : Value → List Char → Prop where
  | null : Writes .null "null".toList
  | true : Writes (.bool true) "true".toList
  | false : Writes (.bool false) "false".toList
  | number {numeral : List Char} (h : IsNumber numeral) : Writes (.number numeral) numeral
  | string {s : String} {cs : List Char} (h : WritesString s cs) : Writes (.string s) cs
  | emptyArray {gap : List Char} (h : IsGap gap) : Writes (.array []) ('[' :: (gap ++ [']']))
  | array {vs : List Value} {cs : List Char} (h : WritesElements vs cs) :
      Writes (.array vs) ('[' :: (cs ++ [']']))
  | emptyObject {gap : List Char} (h : IsGap gap) :
      Writes (.object []) ('\x7b' :: (gap ++ ['\x7d']))
  | object {members : List (String × Value)} {cs : List Char} (h : WritesMembers members cs) :
      Writes (.object members) ('\x7b' :: (cs ++ ['\x7d']))

/-- The ways to write a value with white space around it. -/
inductive WritesElement : Value → List Char → Prop where
  | spaced {v : Value} {before cs after : List Char} (hbefore : IsGap before) (h : Writes v cs)
      (hafter : IsGap after) : WritesElement v (before ++ (cs ++ after))

/-- The ways to write one value or more, between commas. -/
inductive WritesElements : List Value → List Char → Prop where
  | last {v : Value} {cs : List Char} (h : WritesElement v cs) : WritesElements [v] cs
  | cons {v : Value} {vs : List Value} {cs more : List Char} (h : WritesElement v cs)
      (rest : WritesElements vs more) : WritesElements (v :: vs) (cs ++ ',' :: more)

/-- The ways to write a key and its value. -/
inductive WritesMember : String × Value → List Char → Prop where
  | spaced {key : String} {v : Value} {before ks between cs : List Char} (hbefore : IsGap before)
      (hkey : WritesString key ks) (hbetween : IsGap between) (h : WritesElement v cs) :
      WritesMember (key, v) (before ++ (ks ++ (between ++ ':' :: cs)))

/-- The ways to write one member or more, between commas. -/
inductive WritesMembers : List (String × Value) → List Char → Prop where
  | last {member : String × Value} {cs : List Char} (h : WritesMember member cs) :
      WritesMembers [member] cs
  | cons {member : String × Value} {members : List (String × Value)} {cs more : List Char}
      (h : WritesMember member cs) (rest : WritesMembers members more) :
      WritesMembers (member :: members) (cs ++ ',' :: more)

end

/-- The ways to write a value as a whole text. -/
def WritesText (v : Value) (text : String) : Prop :=
  WritesElement v text.toList

variable {c : Char} {cs : List Char} {s : String} {v : Value}

/-! ## Every string can be written -/

theorem SpellsChars.append {t ds : List Char} {s : List Char} (hs : SpellsChars s cs)
    (ht : SpellsChars t ds) : SpellsChars (s ++ t) (cs ++ ds) := by
  induction hs with
  | nil => exact ht
  | cons hc _ ih =>
    rw [List.append_assoc]
    exact .cons hc ih

/-- Text without quotes, backslashes and control characters is spelled as it is. -/
theorem spellsChars_plain {s : List Char}
    (h : ∀ c ∈ s, 0x20 ≤ c.toNat ∧ c ≠ '"' ∧ c ≠ '\\') : SpellsChars s s := by
  induction s with
  | nil => exact .nil
  | cons c s ih =>
    obtain ⟨⟨hlow, hquote, hbackslash⟩, hs⟩ := List.forall_mem_cons.mp h
    exact .cons (.plain hlow hquote hbackslash) (ih hs)

theorem exists_digit {n : Nat} (h : n < 16) : ∃ d, (d, n) ∈ hexadecimalDigits := by
  have hall : ∀ m ∈ List.range 16, ∃ p ∈ hexadecimalDigits, p.2 = m := by decide
  obtain ⟨⟨d, m⟩, hd, rfl⟩ := hall n (List.mem_range.mpr h)
  exact ⟨d, hd⟩

theorem exists_spellsUnit {n : Nat} (h : n < 0x10000) : ∃ digits, SpellsUnit n digits := by
  obtain ⟨a, ha⟩ := exists_digit (n := n / 0x1000) (by omega)
  obtain ⟨b, hb⟩ := exists_digit (n := n / 0x100 % 0x10) (by omega)
  obtain ⟨c, hc⟩ := exists_digit (n := n / 0x10 % 0x10) (by omega)
  obtain ⟨d, hd⟩ := exists_digit (n := n % 0x10) (by omega)
  have hn : ((n / 0x1000 * 16 + n / 0x100 % 0x10) * 16 + n / 0x10 % 0x10) * 16 + n % 0x10 = n := by
    omega
  exact ⟨[a, b, c, d], hn ▸ .digits ha hb hc hd⟩

theorem exists_spellsChar (c : Char) : ∃ cs, SpellsChar c cs := by
  by_cases hplain : 0x20 ≤ c.toNat ∧ c ≠ '"' ∧ c ≠ '\\'
  · exact ⟨[c], .plain hplain.1 hplain.2.1 hplain.2.2⟩
  · have hcode : c.toNat < 0x10000 := by
      refine Nat.lt_of_not_le fun hlarge => hplain ⟨by omega, ?_, ?_⟩
      · intro hc
        rw [hc] at hlarge
        contradiction
      · intro hc
        rw [hc] at hlarge
        contradiction
    obtain ⟨digits, hdigits⟩ := exists_spellsUnit hcode
    exact ⟨_, .unit hdigits⟩

theorem exists_spellsChars (s : List Char) : ∃ cs, SpellsChars s cs := by
  induction s with
  | nil => exact ⟨[], .nil⟩
  | cons c s ih =>
    obtain ⟨written, hc⟩ := exists_spellsChar c
    obtain ⟨cs, hs⟩ := ih
    exact ⟨_, .cons hc hs⟩

theorem exists_writesString (s : String) : ∃ cs, WritesString s cs := by
  obtain ⟨cs, h⟩ := exists_spellsChars s.toList
  exact ⟨_, .quoted h⟩

/-! ## Arrays and objects can be written if their values can -/

theorem Writes.element (h : Writes v cs) : WritesElement v cs := by
  have := WritesElement.spaced (List.forall_mem_nil _) h (List.forall_mem_nil _)
  simpa using this

theorem exists_writes_array {vs : List Value} (h : ∀ v ∈ vs, ∃ cs, Writes v cs) :
    ∃ cs, Writes (.array vs) cs := by
  have helements : vs ≠ [] → ∃ cs, WritesElements vs cs := by
    induction vs with
    | nil => exact fun hne => absurd rfl hne
    | cons v vs ih =>
      intro _
      obtain ⟨⟨cs, hv⟩, hvs⟩ := List.forall_mem_cons.mp h
      cases vs with
      | nil => exact ⟨cs, .last hv.element⟩
      | cons w vs =>
        obtain ⟨more, hmore⟩ := ih hvs (List.cons_ne_nil w vs)
        exact ⟨_, .cons hv.element hmore⟩
  cases vs with
  | nil => exact ⟨_, .emptyArray (List.forall_mem_nil _)⟩
  | cons v vs =>
    obtain ⟨cs, hcs⟩ := helements (List.cons_ne_nil v vs)
    exact ⟨_, .array hcs⟩

theorem exists_writesMember (key : String) (h : Writes v cs) : ∃ ms, WritesMember (key, v) ms := by
  obtain ⟨ks, hks⟩ := exists_writesString key
  exact ⟨_, .spaced (List.forall_mem_nil _) hks (List.forall_mem_nil _) h.element⟩

theorem exists_writes_object {members : List (String × Value)}
    (h : ∀ member ∈ members, ∃ cs, Writes member.2 cs) : ∃ cs, Writes (.object members) cs := by
  have hmembers : members ≠ [] → ∃ cs, WritesMembers members cs := by
    induction members with
    | nil => exact fun hne => absurd rfl hne
    | cons member members ih =>
      intro _
      obtain ⟨⟨cs, hv⟩, hrest⟩ := List.forall_mem_cons.mp h
      obtain ⟨ms, hms⟩ := exists_writesMember member.1 hv
      cases members with
      | nil => exact ⟨ms, .last hms⟩
      | cons next members =>
        obtain ⟨more, hmore⟩ := ih hrest (List.cons_ne_nil next members)
        exact ⟨_, .cons hms hmore⟩
  cases members with
  | nil => exact ⟨_, .emptyObject (List.forall_mem_nil _)⟩
  | cons member members =>
    obtain ⟨cs, hcs⟩ := hmembers (List.cons_ne_nil member members)
    exact ⟨_, .object hcs⟩

theorem exists_writesText_object {members : List (String × Value)}
    (h : ∀ member ∈ members, ∃ cs, Writes member.2 cs) :
    ∃ text, WritesText (.object members) text := by
  obtain ⟨cs, hcs⟩ := exists_writes_object h
  refine ⟨String.ofList cs, ?_⟩
  rw [WritesText, String.toList_ofList]
  exact hcs.element

end CallBridge.Json

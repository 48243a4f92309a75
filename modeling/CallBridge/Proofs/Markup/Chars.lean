import CallBridge.Proofs.Markup.Presentation
import CallBridge.Proofs.Markup.Reading
import CallBridge.Proofs.Text.ByteOrder
import CallBridge.Proofs.Text.Classes

/-!
# Characters of plain documents

Plain names, printable text and references are ASCII, so every encoding reads them as they are.
Letters and digits are no delimiters, and no space is part of a name.
-/

namespace CallBridge.Markup

variable {v : View} {c : Char}

/-! ## Encodings -/

/-- Every encoding reads ASCII as it is. -/
theorem View.holds_of_ascii (hc : c.toNat < 0x80) : v.Holds c := by
  unfold Holds Reader.Encoding.charsOf?
  cases v.encoding with
  | utf8 => rfl
  | latin =>
    have hbyte : String.utf8EncodeChar c = [UInt8.ofNat c.toNat] := by
      have hfirst : Text.firstByte c.toNat = c.toNat := if_pos (Nat.le_of_lt_succ hc)
      have hcount : Text.furtherCount c.toNat = 0 := if_pos (Nat.le_of_lt_succ hc)
      rw [Text.utf8EncodeChar_eq, hfirst, hcount]
      rfl
    have hwhole : (UInt8.ofNat c.toNat).toNat = c.toNat :=
      Nat.mod_eq_of_lt (Nat.lt_trans hc (by decide))
    simp only [Text.byteChars, hbyte, List.map_cons, List.map_nil, hwhole, Char.ofNat_toNat]
  | ascii => exact if_pos hc

theorem View.holds_quote (v : View) (q : Quote) : v.Holds q.char := by
  cases q <;> exact v.holds_of_ascii (by decide)

/-- The view is one of a document with this version and encoding. -/
structure View.IsOf (v : View) (f : Form) : Prop where
  encoding : v.encoding = f.encoding
  revised : v.settings.revised = f.revised

namespace View.IsOf

variable {f : Form}

theorem holds (h : v.IsOf f) (hc : f.Encodes c) : v.Holds c := by
  rcases hc with hutf8 | hascii
  · rw [Holds, h.encoding, hutf8]
    rfl
  · exact holds_of_ascii hascii

theorem add (h : v.IsOf f) (t : Tree) : (v.add t).IsOf f :=
  ⟨(encoding_add v t).trans h.encoding,
    (congrArg Settings.revised (settings_add v t)).trans h.revised⟩

theorem addAll (h : v.IsOf f) (ts : List Tree) : (v.addAll ts).IsOf f :=
  ⟨(encoding_addAll v ts).trans h.encoding,
    (congrArg Settings.revised (settings_addAll v ts)).trans h.revised⟩

theorem enter (h : v.IsOf f) (tag : Tag) : (v.enter tag).IsOf f :=
  ⟨h.encoding, h.revised⟩

end View.IsOf

/-! ## Classes -/

theorem Tree.IsPlain.isPrintable (h : Tree.IsPlain (.char c)) : IsPrintable c := by
  cases h with
  | char hc => exact hc

theorem IsPrintable.isChar (hc : IsPrintable c) (revised : Bool) : isChar revised c = true :=
  (Bool.and_eq_true_iff.mp (isLiteral_of_printable revised hc.low hc.high)).1

theorem IsPrintable.holds (hc : IsPrintable c) : v.Holds c :=
  v.holds_of_ascii (Nat.lt_of_le_of_lt hc.high (by decide))

/-- A letter or digit is different from any character that is none. -/
theorem not_mem_of_isAlphanum {l : List Char} (hl : l.any Char.isAlphanum = false)
    (hc : c.isAlphanum = true) : c ∉ l :=
  fun hmem => List.any_eq_false.mp hl c hmem hc

theorem isPrintable_of_isAlphanum (hc : c.isAlphanum = true) : IsPrintable c := by
  have hrange : 0x30 ≤ c.toNat ∧ c.toNat ≤ 0x7a := by
    rcases Text.isAlphanum_cases hc with hupper | hlower | hdigit
    · have := Text.toNat_of_isUpper hupper
      omega
    · have := Text.toNat_of_isLower hlower
      omega
    · have := Text.toNat_of_isDigit hdigit
      omega
  exact ⟨by omega, by omega⟩

theorem toNat_lt_of_isAlphanum (hc : c.isAlphanum = true) : c.toNat < 0x80 :=
  Nat.lt_of_le_of_lt (isPrintable_of_isAlphanum hc).high (by decide)

theorem isNameStart_of_isAlpha (hc : c.isAlpha = true) : isNameStart c = true := by
  simp [isNameStart, hc]

theorem isNameChar_of_isAlphanum (hc : c.isAlphanum = true) : isNameChar c = true := by
  rw [Char.isAlphanum, Bool.or_eq_true] at hc
  rcases hc with halpha | hdigit
  · simp [isNameChar, isNameStart_of_isAlpha halpha]
  · simp [isNameChar, hdigit]

/-- A character of a name is different from any character that is none. -/
theorem not_mem_of_isNameChar {l : List Char} (hl : l.any isNameChar = false)
    (hc : isNameChar c = true) : c ∉ l :=
  fun hmem => List.any_eq_false.mp hl c hmem hc

theorem eq_of_isSpace (hc : isSpace c = true) : c = ' ' ∨ c = '\n' ∨ c = '\t' ∨ c = '\r' := by
  simpa [isSpace, or_assoc] using hc

theorem not_isNameStart_of_isSpace (hc : isSpace c = true) : isNameStart c = false := by
  rcases eq_of_isSpace hc with rfl | rfl | rfl | rfl <;> decide

theorem not_isNameChar_of_isSpace (hc : isSpace c = true) : isNameChar c = false := by
  rcases eq_of_isSpace hc with rfl | rfl | rfl | rfl <;> decide

theorem holds_of_isSpace (hc : isSpace c = true) : v.Holds c := by
  refine v.holds_of_ascii ?_
  rcases eq_of_isSpace hc with rfl | rfl | rfl | rfl <;> decide

end CallBridge.Markup

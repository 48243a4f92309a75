import CallBridge.Text.Blank
import CallBridge.Text.Word

/-!
# Classes of characters

A class is decided for a list character by character (`forall_mem_of_all`).  Word characters and
decimal digits are no blanks.  A letter becomes a given small one if it is that letter in either size
(`toLower_eq_iff`).
-/

namespace CallBridge.Text

variable {c small : Char}

/-- A property of the characters of a list is decided from one to the next.  To decide it as it
stands, as a statement over all characters, would run through the whole of Unicode. -/
theorem forall_mem_of_all {p : Char → Prop} [DecidablePred p] {cs : List Char}
    (h : cs.all (fun c => decide (p c)) = true) : ∀ c ∈ cs, p c := by
  simpa using h

/-- Ranges that lie apart have no point in common. -/
theorem inRanges_eq_false_of_apart {rs ss : List (Nat × Nat)} {point : Nat}
    (hapart : ∀ r ∈ rs, ∀ s ∈ ss, r.2 < s.1 ∨ s.2 < r.1) (hpoint : inRanges rs point = true) :
    inRanges ss point = false := by
  obtain ⟨r, hr, hlow, hhigh⟩ := inRanges_eq_true_iff.mp hpoint
  rw [Bool.eq_false_iff]
  intro hss
  obtain ⟨s, hs, hslow, hshigh⟩ := inRanges_eq_true_iff.mp hss
  have := hapart r hr s hs
  omega

/-- The identifier characters as ranges of code points. -/
def identRanges : List (Nat × Nat) :=
  [(0x30, 0x39), (0x41, 0x5a), (0x5f, 0x5f), (0x61, 0x7a)]

theorem toNat_of_isUpper (h : c.isUpper = true) : 0x41 ≤ c.toNat ∧ c.toNat ≤ 0x5a := by
  have hval : 0x41 ≤ c.val ∧ c.val ≤ 0x5a := of_decide_eq_true h
  simpa [UInt32.le_iff_toNat_le] using hval

theorem toNat_of_isLower (h : c.isLower = true) : 0x61 ≤ c.toNat ∧ c.toNat ≤ 0x7a := by
  have hval : (decide (0x61 ≤ c.val) && decide (c.val ≤ 0x7a)) = true := h
  simpa [UInt32.le_iff_toNat_le] using hval

theorem toNat_of_isDigit (h : c.isDigit = true) : 0x30 ≤ c.toNat ∧ c.toNat ≤ 0x39 := by
  have hval : (decide (0x30 ≤ c.val) && decide (c.val ≤ 0x39)) = true := h
  simpa [UInt32.le_iff_toNat_le] using hval

theorem isAlphanum_cases (h : c.isAlphanum = true) :
    c.isUpper = true ∨ c.isLower = true ∨ c.isDigit = true := by
  have hor : (c.isUpper || c.isLower || c.isDigit) = true := h
  simpa [or_assoc] using hor

theorem inRanges_of_isDigit (h : c.isDigit = true) : inRanges [(0x30, 0x39)] c.toNat = true := by
  simp [inRanges, toNat_of_isDigit h]

theorem inRanges_of_isIdentChar (h : isIdentChar c = true) :
    inRanges identRanges c.toNat = true := by
  have hcases : c.isAlphanum = true ∨ c = '_' := by
    simpa [isIdentChar] using h
  rcases hcases with halnum | rfl
  · rcases isAlphanum_cases halnum with hupper | hlower | hdigit
    · simp [inRanges, identRanges, toNat_of_isUpper hupper]
    · simp [inRanges, identRanges, toNat_of_isLower hlower]
    · simp [inRanges, identRanges, toNat_of_isDigit hdigit]
  · decide

theorem isIdentChar_iff_inRanges : isIdentChar c = true ↔ inRanges identRanges c.toNat = true := by
  refine ⟨inRanges_of_isIdentChar, fun h => ?_⟩
  have hpoints : (48 ≤ c.toNat ∧ c.toNat ≤ 57) ∨ (65 ≤ c.toNat ∧ c.toNat ≤ 90) ∨
      c.toNat = 95 ∨ (97 ≤ c.toNat ∧ c.toNat ≤ 122) := by
    simp [inRanges, identRanges] at h
    omega
  have hbetween (low high : UInt32) (h : low.toNat ≤ c.toNat ∧ c.toNat ≤ high.toNat) :
      low ≤ c.val ∧ c.val ≤ high := by
    simpa [UInt32.le_iff_toNat_le] using h
  rw [isIdentChar, Bool.or_eq_true_iff]
  rcases hpoints with hdigit | hupper | hunderscore | hlower
  · have hval : (decide (0x30 ≤ c.val) && decide (c.val ≤ 0x39)) = true := by
      simpa using hbetween 0x30 0x39 hdigit
    exact .inl (Bool.or_eq_true_iff.mpr (.inr hval))
  · have hval : decide (0x41 ≤ c.val ∧ c.val ≤ 0x5a) = true :=
      decide_eq_true (hbetween 0x41 0x5a hupper)
    exact .inl (Bool.or_eq_true_iff.mpr (.inl (Bool.or_eq_true_iff.mpr (.inl hval))))
  · exact .inr (beq_iff_eq.mpr (Char.toNat_inj.mp hunderscore))
  · have hval : (decide (0x61 ≤ c.val) && decide (c.val ≤ 0x7a)) = true := by
      simpa using hbetween 0x61 0x7a hlower
    exact .inl (Bool.or_eq_true_iff.mpr (.inl (Bool.or_eq_true_iff.mpr (.inr hval))))

theorem not_isBlank_of_isIdentChar (h : isIdentChar c = true) : isBlank c = false :=
  inRanges_eq_false_of_apart (by decide) (inRanges_of_isIdentChar h)

theorem not_isBlank_of_isDecimal (h : isDecimal c = true) : isBlank c = false := by
  rcases Bool.or_eq_true_iff.mp h with hdigit | hother
  · exact inRanges_eq_false_of_apart (by decide) (inRanges_of_isDigit hdigit)
  · exact inRanges_eq_false_of_apart (by decide +kernel) hother

theorem not_isBlank_of_isWordChar (h : isWordChar c = true) : isBlank c = false := by
  rcases Bool.or_eq_true_iff.mp h with hident | hother
  · exact not_isBlank_of_isIdentChar hident
  · exact inRanges_eq_false_of_apart (by decide +kernel) hother

theorem not_isWordChar_of_isBlank (h : isBlank c = true) : isWordChar c = false := by
  rw [Bool.eq_false_iff]
  intro hword
  rw [not_isBlank_of_isWordChar hword] at h
  contradiction

/-! ## Letters in two sizes -/

theorem toNat_toLower (c : Char) :
    c.toLower.toNat = if 0x41 ≤ c.toNat ∧ c.toNat ≤ 0x5a then c.toNat + 0x20 else c.toNat := by
  have hrange : c.val ≥ 'A'.val ∧ c.val ≤ 'Z'.val ↔ 0x41 ≤ c.toNat ∧ c.toNat ≤ 0x5a := by
    simp [UInt32.le_iff_toNat_le]
  unfold Char.toLower
  split
  · have hupper := hrange.mp ‹_›
    rw [if_pos hupper, ← Char.toNat_val, UInt32.toNat_add, Char.toNat_val]
    simp
    omega
  · rw [if_neg (mt hrange.mpr ‹_›)]

theorem toNat_toUpper (c : Char) :
    c.toUpper.toNat = if 0x61 ≤ c.toNat ∧ c.toNat ≤ 0x7a then c.toNat - 0x20 else c.toNat := by
  have hrange : 'a'.val ≤ c.val ∧ c.val ≤ 'z'.val ↔ 0x61 ≤ c.toNat ∧ c.toNat ≤ 0x7a := by
    simp [UInt32.le_iff_toNat_le]
  unfold Char.toUpper
  split
  · have hlower := hrange.mp ‹_›
    -- The difference of the two sizes is added modulo `2 ^ 32`.
    rw [if_pos hlower, ← Char.toNat_val, UInt32.toNat_add, Char.toNat_val]
    simp
    omega
  · rw [if_neg (mt hrange.mpr ‹_›)]

theorem isIdentChar_toUpper (h : isIdentChar c = true) : isIdentChar c.toUpper = true := by
  rw [isIdentChar_iff_inRanges] at h ⊢
  simp [inRanges, identRanges, toNat_toUpper] at h ⊢
  split <;> omega

/-- No letter is a blank, whatever its size. -/
theorem isBlank_toLower (c : Char) : isBlank c.toLower = isBlank c := by
  have hapart : ∀ r ∈ [(0x41, 0x7a)], ∀ s ∈ blankRanges, r.2 < s.1 ∨ s.2 < r.1 := by decide
  have hletter : ∀ n, 0x41 ≤ n ∧ n ≤ 0x7a → inRanges blankRanges n = false := fun n hn =>
    inRanges_eq_false_of_apart hapart (by simp [inRanges, hn])
  rw [isBlank, isBlank, toNat_toLower]
  split
  · rw [hletter c.toNat (by omega), hletter (c.toNat + 0x20) (by omega)]
  · rfl

theorem toLower_eq_iff (hsmall : small.isLower = true) :
    c.toLower = small ↔ c = small ∨ c = small.toUpper := by
  obtain ⟨hlow, hhigh⟩ := toNat_of_isLower hsmall
  rw [← Char.toNat_inj, ← Char.toNat_inj, ← Char.toNat_inj, toNat_toLower, toNat_toUpper]
  split <;> split <;> omega

end CallBridge.Text

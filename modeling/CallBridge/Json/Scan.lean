import CallBridge.Json.Number
import CallBridge.Text.Bytes

/-!
# Scanning JSON texts

A JSON text is read from left to right, and the first problem counts.

* `scanString` reads a string after its opening quote;
* `misfit` names the problem of a value that stands where a value of another kind
  is wanted: the value is looked at only as far as its kind requires.
-/

namespace CallBridge.Json

open Text

/-- White space between tokens. -/
def isSpace (c : Char) : Bool :=
  c == ' ' || c == '\t' || c == '\n' || c == '\r'

/-- Drops the white space at the front. -/
def skipSpace (cs : List Char) : List Char :=
  cs.dropWhile isSpace

theorem length_skipSpace_le (cs : List Char) : (skipSpace cs).length ≤ cs.length :=
  (List.dropWhile_sublist isSpace).length_le

/-! ## Strings -/

/-- The value of a hexadecimal digit. -/
def hexValue? (c : Char) : Option Nat :=
  if '0' ≤ c ∧ c ≤ '9' then some (c.toNat - '0'.toNat)
  else if 'a' ≤ c ∧ c ≤ 'f' then some (c.toNat - 'a'.toNat + 10)
  else if 'A' ≤ c ∧ c ≤ 'F' then some (c.toNat - 'A'.toNat + 10)
  else none

/-- The number that four hexadecimal digits spell. -/
def hexUnit? (a b c d : Char) : Option Nat := do
  let a ← hexValue? a
  let b ← hexValue? b
  let c ← hexValue? c
  let d ← hexValue? d
  some (((a * 16 + b) * 16 + c) * 16 + d)

/-- Reads four hexadecimal digits.  Fewer than four bytes end the text early,
whatever they are. -/
def scanUnit : List Char → Except Problem (Nat × List Char)
  | a :: b :: c :: d :: rest =>
    match hexUnit? a b c d with
    | some n => .ok (n, rest)
    | none => .error .malformed
  | cs => .error (if width cs < 4 then .endedEarly else .malformed)

/-- Whether a unit is the first half of a surrogate pair. -/
def isLeading (n : Nat) : Bool :=
  decide (0xd800 ≤ n) && decide (n ≤ 0xdbff)

/-- Whether a unit is the second half of a surrogate pair. -/
def isTrailing (n : Nat) : Bool :=
  decide (0xdc00 ≤ n) && decide (n ≤ 0xdfff)

/-- The character of a surrogate pair. -/
def pairChar (leading trailing : Nat) : Char :=
  Char.ofNat (0x10000 + (leading - 0xd800) * 0x400 + (trailing - 0xdc00))

/-- Reads the rest of a character given by its code: one unit, or a surrogate pair
of two. -/
def scanCode (cs : List Char) : Except Problem (Char × List Char) :=
  match scanUnit cs with
  | .error problem => .error problem
  | .ok (n, rest) =>
    if isTrailing n then .error .malformed
    else if isLeading n then
      match rest with
      | [] => .error .endedEarly
      | ['\\'] => .error .endedEarly
      | '\\' :: 'u' :: rest =>
        match scanUnit rest with
        | .error problem => .error problem
        | .ok (m, rest) =>
          if isTrailing m then .ok (pairChar n m, rest) else .error .malformed
      | _ => .error .malformed
    else .ok (Char.ofNat n, rest)

/-- The character that a one-letter escape stands for. -/
def escaped? (c : Char) : Option Char :=
  if c = '"' ∨ c = '\\' ∨ c = '/' then some c
  else if c = 'b' then some '\x08'
  else if c = 'f' then some '\x0c'
  else if c = 'n' then some '\n'
  else if c = 'r' then some '\r'
  else if c = 't' then some '\t'
  else none

/-- Reads an escape after its backslash. -/
def scanEscape : List Char → Except Problem (Char × List Char)
  | [] => .error .endedEarly
  | c :: cs =>
    match escaped? c with
    | some d => .ok (d, cs)
    | none => if c = 'u' then scanCode cs else .error .malformed

theorem length_scanUnit {cs rest : List Char} {n : Nat} (h : scanUnit cs = .ok (n, rest)) :
    rest.length < cs.length := by
  unfold scanUnit at h
  split at h
  · split at h
    · obtain ⟨-, rfl⟩ := Prod.mk.inj (Except.ok.inj h)
      simp only [List.length_cons]
      omega
    · simp at h
  · simp at h

theorem length_scanCode {cs rest : List Char} {c : Char} (h : scanCode cs = .ok (c, rest)) :
    rest.length < cs.length := by
  unfold scanCode at h
  split at h
  · simp at h
  · rename_i n tail hn
    have h1 := length_scanUnit hn
    split at h
    · simp at h
    · split at h
      · split at h
        · simp at h
        · simp at h
        · rename_i more
          split at h
          · simp at h
          · rename_i m tail2 hm
            have h2 := length_scanUnit hm
            split at h
            · obtain ⟨-, rfl⟩ := Prod.mk.inj (Except.ok.inj h)
              simp only [List.length_cons] at h1
              omega
            · simp at h
        · simp at h
      · obtain ⟨-, rfl⟩ := Prod.mk.inj (Except.ok.inj h)
        exact h1

theorem length_scanEscape {cs rest : List Char} {c : Char} (h : scanEscape cs = .ok (c, rest)) :
    rest.length < cs.length := by
  unfold scanEscape at h
  split at h
  · simp at h
  · split at h
    · obtain ⟨-, rfl⟩ := Prod.mk.inj (Except.ok.inj h)
      simp
    · split at h
      · have := length_scanCode h
        simp only [List.length_cons]
        omega
      · simp at h

/-- Reads a string after its opening quote. -/
def scanString (cs : List Char) : Except Problem (List Char × List Char) :=
  match cs with
  | [] => .error .endedEarly
  | c :: cs =>
    if c = '"' then .ok ([], cs)
    else if c = '\\' then
      match h : scanEscape cs with
      | .error problem => .error problem
      | .ok (d, rest) =>
        have := length_scanEscape h
        match scanString rest with
        | .error problem => .error problem
        | .ok (s, rest) => .ok (d :: s, rest)
    else if c.toNat < 0x20 then .error .malformed
    else
      match scanString cs with
      | .error problem => .error problem
      | .ok (s, rest) => .ok (c :: s, rest)
termination_by cs.length

theorem length_scanString {cs s rest : List Char} (h : scanString cs = .ok (s, rest)) :
    rest.length < cs.length := by
  fun_induction scanString cs generalizing s rest with
  | case1 => simp at h
  | case2 cs =>
    obtain ⟨-, rfl⟩ := Prod.mk.inj (Except.ok.inj h)
    simp
  | case3 => simp at h
  | case4 => simp at h
  | case5 cs d more _ _ =>
    rename_i hs _ ih
    obtain ⟨-, rfl⟩ := Prod.mk.inj (Except.ok.inj h)
    have := ih hs
    simp only [List.length_cons]
    omega
  | case6 => simp at h
  | case7 => simp at h
  | case8 c cs =>
    rename_i hs ih
    obtain ⟨-, rfl⟩ := Prod.mk.inj (Except.ok.inj h)
    have := ih hs
    simp only [List.length_cons]
    omega

/-! ## Values of the wrong kind -/

/-- The problem of a number that stands where something else is wanted. -/
def numberProblem (cs : List Char) : Problem :=
  match scanNumber cs with
  | .error problem => problem
  | .ok number => if number.isTooLarge then .malformed else .misfit

/-- The problem of a word that stands where something else is wanted: the letters
still to come, and the text. -/
def wordProblem : List Char → List Char → Problem
  | [], _ => .misfit
  | _ :: _, [] => .endedEarly
  | l :: letters, c :: cs => if c = l then wordProblem letters cs else .malformed

/-- The problem of a value that stands where a value of another kind is wanted. -/
def misfit : List Char → Problem
  | [] => .endedEarly
  | c :: cs =>
    if c = 'n' then wordProblem "ull".toList cs
    else if c = 't' then wordProblem "rue".toList cs
    else if c = 'f' then wordProblem "alse".toList cs
    else if c = '-' then numberProblem cs
    else if c.isDigit then numberProblem (c :: cs)
    else if c = '"' then
      match scanString cs with
      | .error problem => problem
      | .ok _ => .misfit
    else if c = '[' ∨ c = '\x7b' then .misfit
    else .malformed

end CallBridge.Json

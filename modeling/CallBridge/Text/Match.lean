import CallBridge.Text.Blank

/-!
# Matching at the front of a text

Steps of the line matchers: a step looks at the front of a text and gives what
follows, or nothing if the front does not match.
-/

namespace CallBridge.Text

/-- What follows a fixed run of characters. -/
def after? : List Char → List Char → Option (List Char)
  | [], cs => some cs
  | _ :: _, [] => none
  | p :: ps, c :: cs => if p = c then after? ps cs else none

/-- What follows one or more blanks. -/
def afterBlanks? : List Char → Option (List Char)
  | [] => none
  | c :: cs => if isBlank c then some (trimStart cs) else none

/-- A non-empty run of characters of a class, as long as possible, and what follows. -/
def run? (p : Char → Bool) (cs : List Char) : Option (List Char × List Char) :=
  if (cs.takeWhile p).isEmpty then none else some (cs.takeWhile p, cs.dropWhile p)

theorem after?_eq_some_iff {run cs rest : List Char} :
    after? run cs = some rest ↔ cs = run ++ rest := by
  induction run generalizing cs with
  | nil => simp [after?]
  | cons p ps ih =>
    cases cs with
    | nil => simp [after?]
    | cons c cs =>
      by_cases h : p = c
      · simp [after?, h, ih]
      · simp [after?, h, Ne.symm h]

theorem run?_eq_some {p : Char → Bool} {cs name rest : List Char}
    (h : run? p cs = some (name, rest)) :
    name ≠ [] ∧ cs = name ++ rest ∧ ∀ c ∈ name, p c = true := by
  unfold run? at h
  split at h
  · simp at h
  · rename_i hne
    obtain ⟨rfl, rfl⟩ := Prod.mk.inj (Option.some.inj h)
    exact ⟨by simpa using hne, List.takeWhile_append_dropWhile.symm,
      fun c hc => List.all_eq_true.mp List.all_takeWhile c hc⟩

end CallBridge.Text

import CallBridge.Proofs.Header.ArgumentList
import CallBridge.Proofs.Outcome

/-!
# Arguments that cannot be read

Two kinds of arguments offend: blank ones, and those that end, but for identifier characters,
in a character of several bytes.  An argument list is read if none of its arguments offends, and
otherwise the first one that does decides what becomes of it.

* `parameter?_eq_none_iff`: an argument is cut inside a character if it is unsplittable;
* `parametersFrom_eq_error_iff`: the fault of a row of arguments is that of the first offence;
* `paramList_eq_error_iff`, `exists_paramList_eq_ok_iff`: the same for an argument list.
-/

namespace CallBridge

open Text

namespace Header

/-- An argument of nothing but blanks. -/
def IsBlankArgument (argument : List Char) : Prop :=
  ∀ c ∈ argument, isBlank c = true

/-- The part of an argument that is split into a type and a name: all before its first bracket,
without blanks around it. -/
def splitPart (argument : List Char) : List Char :=
  trimEnd ((trim argument).takeWhile (· != '['))

/-- An argument whose last character that belongs to no identifier takes several bytes. -/
def IsUnsplittable (argument : List Char) : Prop :=
  ∃ before c name, splitPart argument = before ++ c :: name ∧ isIdentChar c = false ∧
    (∀ d ∈ name, isIdentChar d = true) ∧ 1 < c.utf8Size

/-- An argument that cannot be read. -/
def Offends (argument : List Char) : Prop :=
  IsBlankArgument argument ∨ IsUnsplittable argument

/-- The fault of an offending argument with a given place in its list. -/
inductive ArgumentFault.Blames (argument : List Char) (index offset : Nat) :
    ArgumentFault → Prop where
  | blank (h : IsBlankArgument argument) : Blames argument index offset (.blank index offset)
  | cutsCharacter (h : IsUnsplittable argument) : Blames argument index offset .cutsCharacter

variable {argument before cs : List Char} {arguments front : List (List Char)}
  {fault : ArgumentFault} {index offset : Nat}

/-! ## One argument -/

theorem argumentBase_eq (argument : List Char) : argumentBase argument = splitPart argument := by
  rw [splitPart]
  by_cases hbracket : '[' ∈ trim argument
  · exact if_pos hbracket
  · have hall : ∀ c ∈ trim argument, (c != '[') = true := by
      intro c hc
      rw [bne_iff_ne]
      rintro rfl
      exact hbracket hc
    rw [List.takeWhile_eq_self_iff.mpr hall, trimEnd_trim]
    exact if_neg hbracket

theorem splitName_spec (cs : List Char) :
    cs = (splitName cs).1 ++ (splitName cs).2 ∧
      (∀ c ∈ (splitName cs).1.getLast?, isIdentChar c = false) ∧ ∀ c ∈ (splitName cs).2, isIdentChar c = true := by
  refine ⟨?_, fun c hc => ?_, fun c hc => ?_⟩
  · rw [splitName, ← List.reverse_append, List.takeWhile_append_dropWhile, List.reverse_reverse]
  · rw [splitName, List.getLast?_reverse] at hc
    have := List.head?_dropWhile_not isIdentChar cs.reverse
    rw [hc] at this
    exact this
  · exact List.mem_takeWhile_imp (List.mem_reverse.mp hc)

/-- The cut falls inside the last character before the name, if that one takes several bytes. -/
theorem cutsLast_splitName_iff :
    cutsLast (splitName cs).1 = true ↔
      ∃ before c name, cs = before ++ c :: name ∧ isIdentChar c = false ∧
        (∀ d ∈ name, isIdentChar d = true) ∧ 1 < c.utf8Size := by
  constructor
  · intro hcuts
    obtain ⟨hsplit, hlast, hname⟩ := splitName_spec cs
    unfold cutsLast at hcuts
    cases hc : (splitName cs).1.getLast? with
    | none => rw [hc] at hcuts; contradiction
    | some c =>
      rw [hc] at hcuts
      obtain ⟨before, hbefore⟩ := List.getLast?_eq_some_iff.mp hc
      refine ⟨before, c, (splitName cs).2, ?_, hlast c hc, hname, of_decide_eq_true hcuts⟩
      rw [hbefore, List.append_assoc] at hsplit
      exact hsplit
  · rintro ⟨before, c, name, rfl, hc, hname, hwide⟩
    have hlast : (before ++ [c]).getLast? = some c := List.getLast?_concat
    have hsplit : splitName (before ++ c :: name) = (before ++ [c], name) := by
      rw [List.append_cons]
      exact splitName_append (by simp [hc]) hname
    rw [hsplit, cutsLast, hlast]
    exact decide_eq_true hwide

theorem parameter?_eq_none_iff : parameter? index argument = none ↔ IsUnsplittable argument := by
  rw [IsUnsplittable, ← argumentBase_eq, ← cutsLast_splitName_iff]
  unfold parameter?
  cases hcuts : cutsLast (splitName (argumentBase argument)).1 with
  | true => simp [hcuts]
  | false => simp [hcuts]

/-- A blank argument has nothing that could be cut. -/
theorem not_isUnsplittable_of_isBlankArgument (h : IsBlankArgument argument) :
    ¬ IsUnsplittable argument := by
  rintro ⟨before, c, name, hpart, -⟩
  have hnil : splitPart argument = [] := by
    rw [splitPart, trim_eq_nil_iff.mpr h]
    rfl
  rw [hnil] at hpart
  exact List.append_ne_nil_of_right_ne_nil before (List.cons_ne_nil c name) hpart.symm

/-! ## Arguments in a row -/

theorem parametersFrom_of_isBlankArgument (h : IsBlankArgument argument) :
    parametersFrom index offset (argument :: arguments) = .error (.blank index offset) := by
  rw [parametersFrom, if_pos (List.isEmpty_iff.mpr (trim_eq_nil_iff.mpr h))]

theorem parametersFrom_of_isUnsplittable (h : IsUnsplittable argument) :
    parametersFrom index offset (argument :: arguments) = .error .cutsCharacter := by
  have hfull : ¬ (trim argument).isEmpty = true := fun hempty =>
    not_isUnsplittable_of_isBlankArgument (trim_eq_nil_iff.mp (List.isEmpty_iff.mp hempty)) h
  rw [parametersFrom, if_neg hfull, parameter?_eq_none_iff.mpr h]

/-- An argument that offends ends the reading, with its own fault. -/
theorem parametersFrom_of_offends (h : Offends argument) :
    parametersFrom index offset (argument :: arguments) = .error fault ↔
      fault.Blames argument index offset := by
  rcases h with hblank | hcut
  · rw [parametersFrom_of_isBlankArgument hblank]
    constructor
    · intro heq
      cases heq
      exact .blank hblank
    · rintro (_ | hcut)
      · rfl
      · exact absurd hcut (not_isUnsplittable_of_isBlankArgument hblank)
  · rw [parametersFrom_of_isUnsplittable hcut]
    constructor
    · intro heq
      cases heq
      exact .cutsCharacter hcut
    · rintro (hblank | _)
      · exact absurd hcut (not_isUnsplittable_of_isBlankArgument hblank)
      · rfl

/-- An argument that does not offend declares a parameter, and reading goes on behind it. -/
theorem parametersFrom_of_not_offends (h : ¬ Offends argument) (index offset : Nat)
    (arguments : List (List Char)) :
    ∃ p, parametersFrom index offset (argument :: arguments) =
      (parametersFrom (index + 1) (offset + width argument + 1) arguments >>= fun ps =>
        .ok (p :: ps)) := by
  obtain ⟨hfull, hsplits⟩ := not_or.mp h
  have hfull : ¬ (trim argument).isEmpty = true := fun hempty =>
    hfull (trim_eq_nil_iff.mp (List.isEmpty_iff.mp hempty))
  cases hp : parameter? index argument with
  | none => exact absurd (parameter?_eq_none_iff.mp hp) hsplits
  | some p => exact ⟨p, by rw [parametersFrom, if_neg hfull, hp]⟩

/-- How many bytes arguments take together, each with the comma behind it. -/
def span : List (List Char) → Nat
  | [] => 0
  | argument :: rest => width argument + 1 + span rest

/-- The fault of arguments is that of the first one that offends. -/
theorem parametersFrom_eq_error_iff :
    parametersFrom index offset arguments = .error fault ↔
      ∃ front argument, IsFirst Offends arguments front argument ∧
        fault.Blames argument (index + front.length) (offset + span front) := by
  induction arguments generalizing index offset with
  | nil =>
    refine iff_of_false nofun ?_
    rintro ⟨front, argument, hfirst, -⟩
    obtain ⟨x, hx, -⟩ := exists_isFirst_iff.mp ⟨front, argument, hfirst⟩
    exact List.not_mem_nil hx
  | cons argument arguments ih =>
    by_cases hoffends : Offends argument
    · rw [parametersFrom_of_offends hoffends]
      constructor
      · intro h
        exact ⟨[], argument, isFirst_nil hoffends, h⟩
      · rintro ⟨front, first, hfirst, h⟩
        rcases isFirst_cons_iff.mp hfirst with ⟨rfl, rfl, -⟩ | ⟨hnot, -⟩
        · exact h
        · exact absurd hoffends hnot
    · obtain ⟨p, hp⟩ := parametersFrom_of_not_offends hoffends index offset arguments
      -- Behind a readable argument, places are counted from the next index and byte.
      have hplace : ∀ front : List (List Char),
          index + 1 + front.length = index + (argument :: front).length ∧
            offset + width argument + 1 + span front = offset + span (argument :: front) := by
        intro front
        rw [List.length_cons, span]
        omega
      rw [hp, bind_eq_error_iff, ih]
      constructor
      · rintro (⟨front, first, hfirst, hblames⟩ | ⟨ps, -, hnever⟩)
        · rw [(hplace front).1, (hplace front).2] at hblames
          exact ⟨argument :: front, first, hfirst.cons hoffends, hblames⟩
        · exact absurd hnever nofun
      · rintro ⟨front, first, hfirst, hblames⟩
        rcases isFirst_cons_iff.mp hfirst with ⟨-, -, h⟩ | ⟨-, rest, rfl, hrest⟩
        · exact absurd h hoffends
        · rw [← (hplace rest).1, ← (hplace rest).2] at hblames
          exact .inl ⟨rest, first, hrest, hblames⟩

/-! ## An argument list -/

/-- The arguments of a list: the pieces between its commas, if the list is neither blank nor
`void`. -/
def argumentsOf (list : List Char) : List (List Char) :=
  if trim list = [] ∨ trim list = "void".toList then [] else pieces (· == ',') list

theorem paramList_eq (list : List Char) :
    paramList list =
      (parametersFrom 0 0 (argumentsOf list) >>= fun ps => .ok (ParamList.ofList ps)) := by
  unfold paramList argumentsOf
  by_cases hnone : trim list = [] ∨ trim list = "void".toList
  · have hnone' : ((trim list).isEmpty || trim list == "void".toList) = true := by
      simpa using hnone
    rw [if_pos hnone]
    exact if_pos hnone'
  · have hnone' : ¬ ((trim list).isEmpty || trim list == "void".toList) = true := by
      simpa using hnone
    rw [if_neg hnone]
    exact if_neg hnone'

theorem paramList_eq_error_iff {list : List Char} :
    paramList list = .error fault ↔
      ∃ front argument, IsFirst Offends (argumentsOf list) front argument ∧
        fault.Blames argument front.length (span front) := by
  rw [paramList_eq, bind_eq_error_iff, parametersFrom_eq_error_iff]
  simp only [Nat.zero_add, reduceCtorEq, and_false, exists_false, or_false]

theorem exists_paramList_eq_ok_iff {list : List Char} :
    (∃ params, paramList list = .ok params) ↔
      ∀ argument ∈ argumentsOf list, ¬ Offends argument := by
  constructor
  · rintro ⟨params, hok⟩ argument hargument hoffends
    obtain ⟨front, first, hfirst⟩ := exists_isFirst_iff.mpr ⟨argument, hargument, hoffends⟩
    have hblames : ∃ fault : ArgumentFault, fault.Blames first front.length (span front) :=
      hfirst.holds.elim (fun h => ⟨_, .blank h⟩) fun h => ⟨_, .cutsCharacter h⟩
    obtain ⟨fault, hblames⟩ := hblames
    rw [paramList_eq_error_iff.mpr ⟨front, first, hfirst, hblames⟩] at hok
    contradiction
  · intro hclean
    cases hlist : paramList list with
    | ok params => exact ⟨params, rfl⟩
    | error fault =>
      obtain ⟨front, first, hfirst, -⟩ := paramList_eq_error_iff.mp hlist
      obtain ⟨argument, hargument, hoffends⟩ := exists_isFirst_iff.mp ⟨front, first, hfirst⟩
      exact absurd hoffends (hclean argument hargument)

end Header

end CallBridge

import CallBridge.Proofs.Header.TypeParts
import CallBridge.Proofs.NormalForm

/-!
# Parameters of a list that is read

Whatever stands between the commas of an argument list, the parameter it gives has a name and a type
that are not empty (`WellFormed`): identifier characters for the name, and for the type a normal form.
Brackets, stars or dots alone come to a type, and the parameter is called by its index.

* `explicitName?_spec`, `syntheticName_ne_empty`: the name of a parameter;
* `exists_type_of_parameter?`: the text that its type is made of;
* `wellFormed_of_parameter?`: one argument;
* `getElem?_of_paramList`: an argument and its index give the parameter, whatever the rest of the list;
* `wellFormed_of_paramList` puts it together.
-/

namespace CallBridge.Header

open Text

variable {argument list : List Char} {index : Nat} {name : String} {p : Parameter}
  {params : ParamList} {ps : List Parameter}

/-- A parameter with a name of identifier characters and a type in normal form, neither of them empty,
which is a pointer if its argument has a bracket. -/
structure WellFormed (argument : List Char) (p : Parameter) : Prop where
  name_ne_empty : p.name ≠ ""
  name_ident : ∀ c ∈ p.name.toList, isIdentChar c = true
  type_ne_empty : p.type ≠ ""
  type_normal : normalizeType p.type = p.type
  pointer : '[' ∈ argument → p.type.toList.getLast? = some '*'

/-! ## Names -/

theorem explicitName?_spec (h : explicitName? argument = some name) :
    name ≠ "" ∧ ∀ c ∈ name.toList, isIdentChar c = true := by
  obtain ⟨-, -, hident⟩ := splitName_spec (argumentBase argument)
  unfold explicitName? at h
  simp only at h
  split at h
  · contradiction
  · rename_i hnamed
    obtain rfl := Option.some.inj h
    constructor
    · intro hempty
      rw [String.ofList_eq_empty_iff] at hempty
      exact hnamed (by simp [isNameless, hempty])
    · rw [String.toList_ofList]
      exact hident

theorem syntheticName_ne_empty (index : Nat) : syntheticName index ≠ "" := by
  intro hempty
  have hletter := congrArg (fun s => s.toList.head?) hempty
  simp [syntheticName] at hletter

/-! ## Types -/

/-- What stands before a name is more than qualifiers, and without a bracket nothing of an argument is
cut off. -/
theorem words_statedType_ne_nil (hargument : ¬ IsBlankArgument argument) (hbracket : '[' ∉ argument) :
    words (statedType argument) ≠ [] := by
  have hpart : splitPart argument = trim argument := by
    rw [← argumentBase_eq]
    exact if_neg fun hmem => hbracket ((isInfix_trim argument).subset hmem)
  rw [statedType]
  simp only
  split
  · rw [hpart, words_trim, Ne, words_eq_nil_iff]
    exact hargument
  · rename_i hnamed
    intro hnil
    exact hnamed (by simp [isNameless, hnil])

/-- Every type is made of a text that is not blank, and that ends in a star if the argument has a
bracket. -/
theorem exists_type_of_parameter? (hargument : ¬ IsBlankArgument argument)
    (h : parameter? index argument = some p) :
    ∃ type : List Char, p.type = normalizeType (String.ofList type) ∧ words type ≠ [] ∧
      ('[' ∈ argument → type.getLast? = some '*') := by
  refine ⟨_, parameter?_type h, ?_⟩
  split
  · have hstar : words ['*'] ≠ [] := by decide
    rw [words_append_blank isBlank_space]
    exact ⟨List.append_ne_nil_of_right_ne_nil _ hstar, fun _ => List.getLast?_append_of_ne_nil _ nofun⟩
  · rename_i hbracket
    exact ⟨words_statedType_ne_nil hargument hbracket, fun hmem => absurd hmem hbracket⟩

/-! ## One argument -/

theorem wellFormed_of_parameter? (hargument : ¬ IsBlankArgument argument)
    (h : parameter? index argument = some p) : WellFormed argument p := by
  have hname : p.name ≠ "" ∧ ∀ c ∈ p.name.toList, isIdentChar c = true := by
    rw [parameter?_name h]
    cases hexplicit : explicitName? argument with
    | none => exact ⟨syntheticName_ne_empty index, isIdentChar_of_mem_syntheticName⟩
    | some name => exact explicitName?_spec hexplicit
  obtain ⟨type, htype, hwords, hstar⟩ := exists_type_of_parameter? hargument h
  have hchars : p.type.toList = normalizeTypeChars type := by
    rw [htype, toList_normalizeType, String.toList_ofList]
  refine ⟨hname.1, hname.2, ?_, ?_, ?_⟩
  · intro hempty
    rw [hempty, String.toList_empty, eq_comm, normalizeTypeChars_eq_nil_iff, ← words_eq_nil_iff] at hchars
    exact hwords hchars
  · rw [htype, normalizeType_idem]
  · intro hbracket
    have hlast : type.getLast? = some '*' := hstar hbracket
    rw [hchars, getLast?_normalizeTypeChars (by simp [hlast, isBlank, inRanges, blankRanges]), hlast]

/-! ## The list -/

/-- A list with parameters is cut at its commas. -/
theorem argumentsOf_of_paramList (h : paramList list = .ok (.list ps)) :
    argumentsOf list = pieces (· == ',') list := by
  refine if_neg fun hnone => ?_
  rw [paramList_eq, argumentsOf, if_pos hnone] at h
  cases h

theorem getElem?_of_paramList (h : paramList list = .ok params) (index : Nat) :
    params.toList[index]? = (argumentsOf list)[index]?.bind (parameter? index) := by
  cases hargument : (argumentsOf list)[index]? with
  | some argument =>
    obtain ⟨p, hindex, hparameter⟩ := exists_getElem?_of_paramList h hargument
    rw [hindex, Option.bind_some, hparameter]
  | none =>
    have hlength := (forall₂_of_paramList h).length_eq
    rw [List.length_zipIdx] at hlength
    rw [List.getElem?_eq_none_iff, hlength] at hargument
    exact List.getElem?_eq_none hargument

theorem forall₂_wellFormed_of_paramList (h : paramList list = .ok params) :
    List.Forall₂ WellFormed (argumentsOf list) params.toList := by
  have hclean : ∀ argument ∈ argumentsOf list, ¬ IsBlankArgument argument := fun argument hmem hblank =>
    exists_paramList_eq_ok_iff.mp ⟨params, h⟩ argument hmem (.inl hblank)
  have hparameters := forall₂_of_paramList h
  rw [← List.zipIdx_map_fst 0 (argumentsOf list), List.forall₂_map_left_iff]
  rw [List.forall₂_iff_zip] at hparameters ⊢
  refine ⟨hparameters.1, fun {x p} hmem => ?_⟩
  have hargument : x.1 ∈ argumentsOf list := List.fst_mem_of_mem_zipIdx (List.of_mem_zip hmem).1
  exact wellFormed_of_parameter? (hclean x.1 hargument) (hparameters.2 hmem)

/-- What becomes of an argument list that is read and is neither blank nor `void`.

* It has one parameter for each piece between its commas, in the same order, and each is well formed.
* A parameter is what its piece declares at its index; so lists that have a piece in common at an index
  have the parameter there in common, whatever their other pieces. -/
theorem wellFormed_of_paramList (h : paramList list = .ok params)
    (hlist : trim list ≠ [] ∧ trim list ≠ "void".toList) :
    ∃ ps, params = .list ps ∧
      List.Forall₂ WellFormed (pieces (· == ',') list) ps ∧
      (∀ index : Nat, ps[index]? = (pieces (· == ',') list)[index]?.bind (parameter? index)) ∧
      ∀ (other : List Char) (qs : List Parameter), paramList other = .ok (.list qs) →
        ∀ index : Nat, (pieces (· == ',') other)[index]? = (pieces (· == ',') list)[index]? →
          qs[index]? = ps[index]? := by
  have harguments : argumentsOf list = pieces (· == ',') list :=
    if_neg (not_or.mpr hlist)
  have hwellFormed := forall₂_wellFormed_of_paramList h
  have hindex := getElem?_of_paramList h
  rw [harguments] at hwellFormed hindex
  cases params with
  | void =>
    have hnone : pieces (· == ',') list = [] := List.forall₂_nil_right_iff.mp hwellFormed
    exact absurd hnone (pieces_ne_nil _ _)
  | list ps =>
    refine ⟨ps, rfl, hwellFormed, hindex, fun other qs hother index hsame => ?_⟩
    have hothers := getElem?_of_paramList hother index
    rw [argumentsOf_of_paramList hother, hsame, ← hindex] at hothers
    exact hothers

/-- An argument list of odd pieces: a bracket alone, a star, dots, a qualifier and an array. -/
def oddArguments : List Char :=
  "[16], *, ..., const, GLint m[4]".toList

theorem wellFormed_oddArguments :
    (trim oddArguments ≠ [] ∧ trim oddArguments ≠ "void".toList) ∧
    ∃ ps, paramList oddArguments = .ok (.list ps) ∧
      ps = [⟨"*", "p0"⟩, ⟨"*", "p1"⟩, ⟨"...", "p2"⟩, ⟨"const", "p3"⟩, ⟨"GLint *", "m"⟩] ∧
      List.Forall₂ WellFormed (pieces (· == ',') oddArguments) ps := by
  have hparams : paramList oddArguments = .ok (.list [⟨"*", "p0"⟩, ⟨"*", "p1"⟩, ⟨"...", "p2"⟩,
      ⟨"const", "p3"⟩, ⟨"GLint *", "m"⟩]) := by
    decide +kernel
  have hlist : trim oddArguments ≠ [] ∧ trim oddArguments ≠ "void".toList := by decide +kernel
  obtain ⟨ps, hps, hwellFormed, -⟩ := wellFormed_of_paramList hparams hlist
  obtain rfl := ParamList.list.inj hps
  exact ⟨hlist, _, hparams, rfl, hwellFormed⟩

end CallBridge.Header

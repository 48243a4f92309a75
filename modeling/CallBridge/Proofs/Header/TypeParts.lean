import CallBridge.Proofs.Header.ParameterNames

/-!
# Words that are part of a type

An argument that ends in a word has that word for its name, unless it can only be part of a type: then
the argument has no name, and all of it is the type.  Two lists say which words these are, the words
that name a type and those that qualify one.  At the end of an argument only the first list counts, and
`volatile` is on the second alone.

* `parameter?_type`: what the type of a parameter is made of;
* `parameter?_of_endsIn`: what an argument that ends in a word declares;
* `parameter_of_typePart`: an argument that ends in a part of a type has no name, unless the part is
  `volatile` and something other than qualifiers stands before it;
* `volatile_taken_for_name`: such an argument.
-/

namespace CallBridge.Header

open Text

variable {argument before word list : List Char} {index : Nat} {p : Parameter} {params : ParamList}

/-- The type that an argument states: what stands before its name, or all of it before any bracket if it
has none. -/
def statedType (argument : List Char) : List Char :=
  let (before, name) := splitName (splitPart argument)
  if isNameless before name then splitPart argument else before

/-- An argument ends, before any bracket, in a word that begins behind other text. -/
structure EndsIn (argument before word : List Char) : Prop where
  split : splitPart argument = before ++ word
  before_ends : ∀ c ∈ before.getLast?, isIdentChar c = false
  word_ne_nil : word ≠ []
  word_ident : ∀ c ∈ word, isIdentChar c = true

/-- A type text as a parameter has it: in normal form, and a pointer if the argument has a bracket. -/
def typeIn (argument type : List Char) : String :=
  normalizeType (String.ofList type) ++ if '[' ∈ argument then " *" else ""

/-- The parameter of an argument that is a type and nothing else. -/
def namelessParameter (index : Nat) (argument : List Char) : Parameter :=
  ⟨typeIn argument (splitPart argument), syntheticName index⟩

/-- The word `volatile` behind something that is more than qualifiers. -/
def IsLateVolatile (before word : List Char) : Prop :=
  word = "volatile".toList ∧ ∃ other ∈ words before, other ∉ qualifiers

/-! ## One argument -/

theorem words_ne_nil_of_endsIn (h : EndsIn argument before word) : words (splitPart argument) ≠ [] := by
  obtain ⟨c, cs, hword⟩ := List.exists_cons_of_ne_nil h.word_ne_nil
  have hc : c ∈ word := hword ▸ List.mem_cons_self
  have hword : isBlank c = false := not_isBlank_of_isIdentChar (h.word_ident c hc)
  intro hnil
  have hblank := words_eq_nil_iff.mp hnil c (h.split ▸ List.mem_append_right before hc)
  exact absurd hblank (by simp [hword])

theorem isNameless_iff (hne : word ≠ []) :
    isNameless before word = true ↔ (∀ other ∈ words before, other ∈ qualifiers) ∨ word ∈ typeWords := by
  simp [isNameless, hne]

theorem normalizeType_typeIn {type : List Char} (hwords : words type ≠ []) :
    normalizeType (String.ofList (if '[' ∈ argument then trim type ++ [' ', '*'] else type)) =
      typeIn argument type := by
  unfold typeIn
  split
  · have htrim : normalizeTypeChars (trim type) = normalizeTypeChars type := by
      rw [normalizeTypeChars, words_trim, ← normalizeTypeChars]
    rw [normalizeType, normalizeType, String.toList_ofList, String.toList_ofList,
      normalizeTypeChars_append_star (words_trim type ▸ hwords), htrim, String.ofList_append]
  · exact (String.append_empty).symm

/-- A parameter has the type that its argument states, with a star of its own for a bracket. -/
theorem parameter?_type (h : parameter? index argument = some p) :
    p.type = normalizeType (String.ofList
      (if '[' ∈ argument then trim (statedType argument) ++ [' ', '*'] else statedType argument)) := by
  unfold parameter? at h
  simp only [argumentBase_eq] at h
  split at h
  · contradiction
  · obtain rfl := Option.some.inj h
    simp only [Parameter.normal, statedType, apply_ite Prod.fst]

/-- An argument that ends in a word declares a parameter of that name, or one without a name. -/
theorem parameter?_of_endsIn (h : EndsIn argument before word)
    (hp : parameter? index argument = some p) :
    p = if isNameless before word then namelessParameter index argument
      else ⟨typeIn argument before, String.ofList word⟩ := by
  have hsplit : splitName (splitPart argument) = (before, word) := by
    rw [h.split]
    exact splitName_append h.before_ends h.word_ident
  have hname := parameter?_name hp
  have htype := parameter?_type hp
  simp only [explicitName?, argumentBase_eq, hsplit] at hname
  simp only [statedType, hsplit] at htype
  obtain ⟨type, name⟩ := p
  cases hnameless : isNameless before word with
  | true =>
    simp only [hnameless, if_true, Option.getD_none] at hname htype
    rw [normalizeType_typeIn (words_ne_nil_of_endsIn h)] at htype
    rw [if_pos rfl, namelessParameter, hname, htype]
  | false =>
    have hwords : words before ≠ [] := by
      intro hnil
      rw [(isNameless_iff h.word_ne_nil).mpr (.inl (hnil ▸ List.forall_mem_nil _))] at hnameless
      contradiction
    simp only [hnameless, Bool.false_eq_true, if_false, Option.getD_some] at hname htype
    rw [normalizeType_typeIn hwords] at htype
    rw [if_neg Bool.false_ne_true, hname, htype]

/-! ## The list -/

/-- The parameter at an index is that of the argument at the index. -/
theorem exists_getElem?_of_paramList (h : paramList list = .ok params)
    (hargument : (argumentsOf list)[index]? = some argument) :
    ∃ p, params.toList[index]? = some p ∧ parameter? index argument = some p := by
  obtain ⟨hlength, hall⟩ := List.forall₂_iff_get.mp (forall₂_of_paramList h)
  have hplace : ((argumentsOf list).zipIdx)[index]? = some (argument, index) := by
    rw [List.getElem?_zipIdx, hargument]
    simp
  obtain ⟨hindex, hvalue⟩ := List.getElem?_eq_some_iff.mp hplace
  have hp := hall index hindex (hlength ▸ hindex)
  rw [List.get_eq_getElem, hvalue] at hp
  exact ⟨_, List.getElem?_eq_getElem (hlength ▸ hindex), hp⟩

/-- Of the words that are part of a type, only a late `volatile` is taken for a name. -/
theorem isNameless_iff_of_typePart (hne : word ≠ []) (hpart : word ∈ typeWords ∨ word ∈ qualifiers) :
    isNameless before word = true ↔ ¬ IsLateVolatile before word := by
  have hconst : "const".toList ∈ typeWords := by decide
  have hvolatile : "volatile".toList ∉ typeWords := by decide
  rw [isNameless_iff hne]
  by_cases hlast : word = "volatile".toList
  · subst hlast
    rw [or_iff_left hvolatile, IsLateVolatile]
    simp only [true_and, not_exists, not_and, not_not]
  · have hlisted : word ∈ typeWords := by
      rcases hpart with htype | hqualifier
      · exact htype
      · rcases List.mem_cons.mp hqualifier with rfl | hrest
        · exact hconst
        · exact absurd (List.mem_singleton.mp hrest) hlast
    exact iff_of_true (.inr hlisted) fun hlate => hlast hlate.1

/-- What becomes of an argument that ends in a part of a type: a word that names a type or a part of
one, or that qualifies one.

* It declares a parameter with the synthetic name of its index, whose type is the whole argument before
  any bracket, in normal form and with a star of its own if there is a bracket, if and only if it does
  not end in `volatile` behind something other than qualifiers.
* If it does, `volatile` is taken for its name, and the type is what stands before. -/
theorem parameter_of_typePart (h : paramList list = .ok params)
    (hargument : (argumentsOf list)[index]? = some argument) (hends : EndsIn argument before word)
    (hpart : word ∈ typeWords ∨ word ∈ qualifiers) :
    ∃ p, params.toList[index]? = some p ∧
      (p = namelessParameter index argument ↔ ¬ IsLateVolatile before word) ∧
      (IsLateVolatile before word → p = ⟨typeIn argument before, "volatile"⟩) := by
  obtain ⟨p, hindex, hparameter⟩ := exists_getElem?_of_paramList h hargument
  have hp := parameter?_of_endsIn hends hparameter
  have hnameless : isNameless before word = true ↔ ¬ IsLateVolatile before word :=
    isNameless_iff_of_typePart hends.word_ne_nil hpart
  by_cases hlate : IsLateVolatile before word
  · rw [if_neg (fun hnone => hnameless.mp hnone hlate), hlate.1, String.ofList_toList] at hp
    refine ⟨p, hindex, iff_of_false ?_ (not_not_intro hlate), fun _ => hp⟩
    intro hsame
    have hname : syntheticName index = "volatile" := by
      rw [hp] at hsame
      exact (congrArg Parameter.name hsame).symm
    have hletter : (syntheticName index).toList.head? = some 'p' := by
      simp [syntheticName]
    rw [hname] at hletter
    exact absurd hletter (by decide)
  · rw [if_pos (hnameless.mpr hlate)] at hp
    exact ⟨p, hindex, iff_of_true hp hlate, fun h => absurd h hlate⟩

theorem glint_ends : ∀ c ∈ "GLint ".toList.getLast?, isIdentChar c = false := by
  have hlast : "GLint ".toList.getLast? = some ' ' := by decide
  intro c hc
  rw [hlast] at hc
  obtain rfl := Option.some.inj hc
  decide

/-- An array of constants without a name, between arguments that have one. -/
theorem parameter_const_array :
    ∃ params, paramList "GLenum pname, GLint const [2], GLint volatile *p".toList = .ok params ∧
      params.toList[1]? = some ⟨"GLint const *", "p1"⟩ := by
  have hparams : paramList "GLenum pname, GLint const [2], GLint volatile *p".toList =
      .ok (.list [⟨"GLenum", "pname"⟩, ⟨"GLint const *", "p1"⟩, ⟨"GLint volatile *", "p"⟩]) := by
    decide +kernel
  have hargument : (argumentsOf "GLenum pname, GLint const [2], GLint volatile *p".toList)[1]? =
      some " GLint const [2]".toList := by
    decide +kernel
  have hends : EndsIn " GLint const [2]".toList "GLint ".toList "const".toList :=
    ⟨by decide +kernel, glint_ends, by decide, forall_mem_of_all (by decide)⟩
  have hearly : ¬ IsLateVolatile "GLint ".toList "const".toList := fun hlate =>
    absurd hlate.1 (by decide)
  obtain ⟨p, hp, hnameless, -⟩ := parameter_of_typePart hparams hargument hends (.inl (by decide))
  refine ⟨_, hparams, ?_⟩
  rw [hp, hnameless.mpr hearly]
  decide +kernel

/-- The last word of the argument qualifies a type, and is taken for the name of the argument. -/
theorem volatile_taken_for_name :
    ∃ params, paramList "GLint volatile".toList = .ok params ∧
      (argumentsOf "GLint volatile".toList)[0]? = some "GLint volatile".toList ∧
      EndsIn "GLint volatile".toList "GLint ".toList "volatile".toList ∧
      "volatile".toList ∈ qualifiers ∧
      params.toList = [⟨"GLint", "volatile"⟩] ∧
      params.toList[0]? ≠ some (namelessParameter 0 "GLint volatile".toList) :=
  ⟨.list [⟨"GLint", "volatile"⟩], by decide +kernel, by decide +kernel,
    ⟨by decide +kernel, glint_ends, by decide, forall_mem_of_all (by decide)⟩, by decide, rfl,
    by decide +kernel⟩

end CallBridge.Header

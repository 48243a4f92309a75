import CallBridge.Header.Argument
import CallBridge.Proofs.Text.Classes
import CallBridge.Proofs.TypeText

/-!
# Argument lists that are read back

`paramList_paramText`: the parameters of a signature, written as declarators between commas,
are read back as they were.

The name of an argument is the run of identifier characters at its end.  In a declarator a
space or a star stands before it, so the run ends there, the cut does not fall inside a
character, and what is left of the argument is the type or the type and one space.
-/

namespace CallBridge

open Text

variable {type name : List Char}

/-- A declarator without its name. -/
def beforeName (type : List Char) : List Char :=
  if type.getLast? = some '*' then type else type ++ [' ']

theorem toList_declarator (type name : String) :
    (declarator type name).toList = beforeName type.toList ++ name.toList := by
  unfold declarator beforeName
  split <;> simp

/-- What stands right before the name is no part of it and takes one byte. -/
theorem getLast?_beforeName (type : List Char) :
    (beforeName type).getLast? = some '*' ∨ (beforeName type).getLast? = some ' ' := by
  unfold beforeName
  split
  · exact .inl ‹_›
  · exact .inr (by rw [List.getLast?_append]; rfl)

theorem beforeName_ne_nil (type : List Char) : beforeName type ≠ [] := by
  intro hnil
  rcases getLast?_beforeName type with hlast | hlast <;> simp [hnil] at hlast

theorem words_beforeName (type : List Char) : words (beforeName type) = words type := by
  unfold beforeName
  split
  · rfl
  · exact words_concat_blank isBlank_space type

theorem normalizeTypeChars_beforeName (h : IsTypeText type) :
    normalizeTypeChars (beforeName type) = type := by
  rw [normalizeTypeChars, words_beforeName, ← normalizeTypeChars, h.normal]

theorem mem_of_mem_beforeName {c : Char} (hc : c ∈ beforeName type) : c ∈ type ∨ c = ' ' := by
  unfold beforeName at hc
  split at hc
  · exact .inl hc
  · rcases List.mem_append.mp hc with htype | hspace
    · exact .inl htype
    · exact .inr (List.mem_singleton.mp hspace)

theorem head?_beforeName (h : IsTypeText type) : (beforeName type).head? = type.head? := by
  unfold beforeName
  split
  · rfl
  · obtain ⟨c, cs, heq⟩ := List.exists_cons_of_ne_nil h.ne_nil
    rw [heq]
    rfl

namespace Header

/-- A parameter that an argument can declare: a type text without commas and brackets, in
which not every word is a qualifier, and an identifier that names no type. -/
structure IsArgument (p : Parameter) : Prop where
  typeText : IsTypeText p.type.toList
  comma_free : ',' ∉ p.type.toList
  bracket_free : '[' ∉ p.type.toList
  typed : ∃ word ∈ words p.type.toList, word ∉ qualifiers
  name_ne_nil : p.name.toList ≠ []
  name_ident : ∀ c ∈ p.name.toList, isIdentChar c = true
  name_free : p.name.toList ∉ typeWords

/-! ## One argument -/

/-- The argument that declares a parameter. -/
def argumentText (p : Parameter) : List Char :=
  beforeName p.type.toList ++ p.name.toList

theorem isTrimmed_of_isIdentChar (h : ∀ c ∈ name, isIdentChar c = true) : IsTrimmed name where
  head c hc := not_isBlank_of_isIdentChar (h c (List.mem_of_mem_head? hc))
  last c hc := not_isBlank_of_isIdentChar (h c (List.mem_of_mem_getLast? hc))

theorem isTrimmed_name {p : Parameter} (h : IsArgument p) : IsTrimmed p.name.toList :=
  isTrimmed_of_isIdentChar h.name_ident

theorem argumentText_ne_nil {p : Parameter} (h : IsArgument p) : argumentText p ≠ [] :=
  List.append_ne_nil_of_right_ne_nil _ h.name_ne_nil

theorem isTrimmed_argumentText {p : Parameter} (h : IsArgument p) :
    IsTrimmed (argumentText p) := by
  refine isTrimmed_append (beforeName_ne_nil _) h.name_ne_nil ?_ (isTrimmed_name h).last
  rw [head?_beforeName h.typeText]
  exact h.typeText.isTrimmed.head

theorem not_mem_argumentText {p : Parameter} (h : IsArgument p) {c : Char}
    (htype : c ∉ p.type.toList) (hspace : c ≠ ' ') (hc : isIdentChar c = false) :
    c ∉ argumentText p := by
  intro hmem
  rcases List.mem_append.mp hmem with hbefore | hname
  · exact (mem_of_mem_beforeName hbefore).elim htype hspace
  · rw [h.name_ident c hname] at hc
    contradiction

/-- The name is split off where the identifier characters end. -/
theorem splitName_append {before : List Char}
    (hbefore : ∀ c ∈ before.getLast?, isIdentChar c = false)
    (hname : ∀ c ∈ name, isIdentChar c = true) : splitName (before ++ name) = (before, name) := by
  have hrev : ∀ c ∈ name.reverse, isIdentChar c = true := fun c hc =>
    hname c (List.mem_reverse.mp hc)
  have hstop : ¬ (∃ c ds, before.reverse = c :: ds ∧ isIdentChar c = true) := by
    rintro ⟨c, ds, heq, hc⟩
    have hlast : before.getLast? = some c := by rw [← List.head?_reverse, heq]; rfl
    rw [hbefore c hlast] at hc
    contradiction
  have htake : before.reverse.takeWhile isIdentChar = [] := by
    cases hb : before.reverse with
    | nil => rfl
    | cons c ds => exact List.takeWhile_cons_of_neg fun hc => hstop ⟨c, ds, hb, hc⟩
  have hdrop : before.reverse.dropWhile isIdentChar = before.reverse := by
    cases hb : before.reverse with
    | nil => rfl
    | cons c ds => exact List.dropWhile_cons_of_neg fun hc => hstop ⟨c, ds, hb, hc⟩
  rw [splitName, List.reverse_append, List.takeWhile_append_of_pos hrev, htake,
    List.dropWhile_append_of_pos hrev, hdrop, List.append_nil, List.reverse_reverse,
    List.reverse_reverse]

/-- An argument declares its parameter, wherever it stands in the list and whatever blanks
stand before it. -/
theorem parameter?_argumentText {p : Parameter} (h : IsArgument p) {argument : List Char}
    (htrim : trim argument = argumentText p) (hbracket : '[' ∉ argument) (index : Nat) :
    parameter? index argument = some p := by
  have hbase : argumentBase argument = argumentText p := by
    have : '[' ∉ argumentText p := not_mem_argumentText h h.bracket_free (by decide) (by decide)
    rw [argumentBase, htrim]
    exact if_neg this
  have hbefore : ∀ c ∈ (beforeName p.type.toList).getLast?,
      isIdentChar c = false ∧ ¬ 1 < c.utf8Size := by
    intro c hc
    rcases getLast?_beforeName p.type.toList with hlast | hlast
    · rw [hlast] at hc; obtain rfl := Option.some.inj hc; decide
    · rw [hlast] at hc; obtain rfl := Option.some.inj hc; decide
  have hsplit : splitName (argumentText p) = (beforeName p.type.toList, p.name.toList) :=
    splitName_append (fun c hc => (hbefore c hc).1) h.name_ident
  have hcut : cutsLast (beforeName p.type.toList) = false := by
    unfold cutsLast
    split
    · rename_i c hc
      exact decide_eq_false (hbefore c hc).2
    · rfl
  have hnamed : isNameless (beforeName p.type.toList) p.name.toList = false := by
    obtain ⟨word, hword, hfree⟩ := h.typed
    have hwords : (words (beforeName p.type.toList)).all (qualifiers.contains ·) = false := by
      rw [words_beforeName, List.all_eq_false]
      exact ⟨word, hword, by simpa using hfree⟩
    have hname : p.name.toList.isEmpty = false := by simpa using h.name_ne_nil
    have hnoType : typeWords.contains p.name.toList = false := by simpa using h.name_free
    rw [isNameless, hwords, hname, hnoType]
    rfl
  have hnormal : Parameter.normal (String.ofList (beforeName p.type.toList)) p.name = p := by
    rw [Parameter.normal, normalizeType, String.toList_ofList,
      normalizeTypeChars_beforeName h.typeText, String.ofList_toList, trimmed,
      trim_eq_self (isTrimmed_name h), String.ofList_toList]
  simp only [parameter?, hbase, hsplit, hcut, hnamed, hbracket, if_false, Bool.false_eq_true,
    String.ofList_toList, hnormal]

/-! ## The list -/

/-- Behind a comma, every argument of a list begins with a space. -/
theorem pieces_spaced {ps : List (List Char)} (hcomma : ∀ piece ∈ ps, ',' ∉ piece) (hne : ps ≠ []) :
    pieces (· == ',') (' ' :: joinWith [',', ' '] ps) = ps.map (' ' :: ·) := by
  induction ps with
  | nil => exact absurd rfl hne
  | cons piece rest ih =>
    obtain ⟨hpiece, hrest⟩ := List.forall_mem_cons.mp hcomma
    have hnot : ∀ c ∈ ' ' :: piece, (c == ',') = false := by
      intro c hc
      rw [beq_eq_false_iff_ne]
      rintro rfl
      exact (List.mem_cons.mp hc).elim (by decide) hpiece
    cases rest with
    | nil => exact pieces_of_not_separates hnot
    | cons next rest =>
      have hjoin : ' ' :: joinWith [',', ' '] (piece :: next :: rest) =
          (' ' :: piece) ++ ',' :: (' ' :: joinWith [',', ' '] (next :: rest)) := by
        simp [joinWith]
      rw [hjoin, pieces_append_cons hnot (by decide), ih hrest (List.cons_ne_nil _ _)]
      rfl

theorem parametersFrom_cons {p : Parameter} (h : IsArgument p) {argument : List Char}
    (htrim : trim argument = argumentText p) (hbracket : '[' ∉ argument)
    {arguments : List (List Char)} {ps : List Parameter}
    (hrest : ∀ index offset, parametersFrom index offset arguments = .ok ps) (index offset : Nat) :
    parametersFrom index offset (argument :: arguments) = .ok (p :: ps) := by
  have hfull : (trim argument).isEmpty = false := by
    rw [htrim]
    simpa using argumentText_ne_nil h
  rw [parametersFrom, hfull, parameter?_argumentText h htrim hbracket, hrest]
  rfl

theorem bracket_not_mem_argumentText {p : Parameter} (h : IsArgument p) :
    '[' ∉ argumentText p :=
  not_mem_argumentText h h.bracket_free (by decide) (by decide)

theorem parametersFrom_spaced {ps : List Parameter} (h : ∀ p ∈ ps, IsArgument p)
    (index offset : Nat) :
    parametersFrom index offset ((ps.map argumentText).map (' ' :: ·)) = .ok ps := by
  induction ps generalizing index offset with
  | nil => rfl
  | cons p ps ih =>
    obtain ⟨hp, hps⟩ := List.forall_mem_cons.mp h
    have htrim : trim (' ' :: argumentText p) = argumentText p := by
      rw [trim_cons isBlank_space, trim_eq_self (isTrimmed_argumentText hp)]
    have hbracket : '[' ∉ ' ' :: argumentText p := by
      intro hmem
      exact (List.mem_cons.mp hmem).elim (by decide) (bracket_not_mem_argumentText hp)
    exact parametersFrom_cons hp htrim hbracket (ih hps) index offset

/-- Arguments between commas are read as their parameters. -/
theorem parametersFrom_pieces {p : Parameter} {ps : List Parameter} (hp : IsArgument p)
    (hps : ∀ q ∈ ps, IsArgument q) (index offset : Nat) :
    parametersFrom index offset
      (pieces (· == ',') (joinWith [',', ' '] ((p :: ps).map argumentText))) = .ok (p :: ps) := by
  have hcomma : ∀ q, IsArgument q → ',' ∉ argumentText q := fun q hq =>
    not_mem_argumentText hq hq.comma_free (by decide) (by decide)
  have hnot : ∀ c ∈ argumentText p, (c == ',') = false := by
    intro c hc
    rw [beq_eq_false_iff_ne]
    rintro rfl
    exact hcomma p hp hc
  have htrim : trim (argumentText p) = argumentText p := trim_eq_self (isTrimmed_argumentText hp)
  cases ps with
  | nil =>
    rw [List.map_cons, List.map_nil, joinWith, pieces_of_not_separates hnot]
    exact parametersFrom_cons hp htrim (bracket_not_mem_argumentText hp) (fun _ _ => rfl) _ _
  | cons q qs =>
    have hfree : ∀ piece ∈ (q :: qs).map argumentText, ',' ∉ piece := by
      intro piece hpiece
      obtain ⟨r, hr, rfl⟩ := List.mem_map.mp hpiece
      exact hcomma r (hps r hr)
    have hjoin : joinWith [',', ' '] ((p :: q :: qs).map argumentText) =
        argumentText p ++ ',' :: (' ' :: joinWith [',', ' '] ((q :: qs).map argumentText)) := by
      simp [joinWith]
    rw [hjoin, pieces_append_cons hnot (by decide),
      pieces_spaced hfree (List.cons_ne_nil _ _)]
    exact parametersFrom_cons hp htrim (bracket_not_mem_argumentText hp)
      (parametersFrom_spaced hps) _ _

theorem toList_paramText (p : Parameter) (ps : List Parameter) :
    (Signature.paramText (.list (p :: ps))).toList =
      joinWith [',', ' '] ((p :: ps).map argumentText) := by
  have hargument : String.toList ∘ (fun q : Parameter => declarator q.type q.name) =
      argumentText := funext fun q => toList_declarator q.type q.name
  rw [Signature.paramText, if_neg (by simp [ParamList.isEmpty, ParamList.toList]),
    toList_intercalate, List.map_map, hargument]
  rfl

/-- The parameters of a signature, as it writes them, are read back as they were. -/
theorem paramList_paramText {params : ParamList} (hne : params ≠ .list [])
    (h : ∀ p ∈ params.toList, IsArgument p) :
    paramList (Signature.paramText params).toList = .ok params := by
  match params with
  | .void => rfl
  | .list [] => exact absurd rfl hne
  | .list (p :: ps) =>
    obtain ⟨hp, hps⟩ := List.forall_mem_cons.mp h
    rw [toList_paramText]
    have hfull : ∀ piece ∈ (p :: ps).map argumentText, piece ≠ [] ∧ IsTrimmed piece := by
      intro piece hpiece
      obtain ⟨q, hq, rfl⟩ := List.mem_map.mp hpiece
      exact ⟨argumentText_ne_nil (h q hq), isTrimmed_argumentText (h q hq)⟩
    have htrim : trim (joinWith [',', ' '] ((p :: ps).map argumentText)) =
        joinWith [',', ' '] ((p :: ps).map argumentText) := by
      refine trim_eq_self ⟨fun c hc => ?_, fun c hc => ?_⟩
      · obtain ⟨piece, hpiece, hcp⟩ := mem_head?_joinWith (fun q hq => (hfull q hq).1) hc
        exact (hfull piece hpiece).2.head c hcp
      · obtain ⟨piece, hpiece, hcp⟩ := mem_getLast?_joinWith (fun q hq => (hfull q hq).1) hc
        exact (hfull piece hpiece).2.last c hcp
    -- The list is not `void`, because a space or a star stands before the first name.
    have hmark : ∃ c ∈ joinWith [',', ' '] ((p :: ps).map argumentText), isIdentChar c = false := by
      have hprefix : argumentText p <+: joinWith [',', ' '] ((p :: ps).map argumentText) :=
        prefix_joinWith _ _ _
      have hmem : ∀ c, (beforeName p.type.toList).getLast? = some c →
          c ∈ joinWith [',', ' '] ((p :: ps).map argumentText) := fun c hc =>
        hprefix.subset (List.mem_append_left _ (List.mem_of_mem_getLast? hc))
      rcases getLast?_beforeName p.type.toList with hlast | hlast
      · exact ⟨'*', hmem _ hlast, by decide⟩
      · exact ⟨' ', hmem _ hlast, by decide⟩
    obtain ⟨c, hc, hident⟩ := hmark
    have hempty : (joinWith [',', ' '] ((p :: ps).map argumentText)).isEmpty = false := by
      simpa using List.ne_nil_of_mem hc
    have hvoid : (joinWith [',', ' '] ((p :: ps).map argumentText) == "void".toList) = false := by
      rw [beq_eq_false_iff_ne]
      intro heq
      have hall : ∀ d ∈ "void".toList, isIdentChar d = true := forall_mem_of_all (by decide)
      rw [hall c (heq ▸ hc)] at hident
      contradiction
    simp only [paramList, htrim, hempty, hvoid, Bool.or_self, Bool.false_eq_true, if_false]
    rw [parametersFrom_pieces hp hps]
    rfl

end Header

end CallBridge

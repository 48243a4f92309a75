import CallBridge.Proofs.Generation.Flags
import CallBridge.Proofs.Header.ArgumentList
import CallBridge.Proofs.Text.Match
import Mathlib.Data.List.Forall2

/-!
# What a wrapper hands on

A wrapper takes the parameters of its function under names of its own, and passes on what it takes.
The list that it declares is C text of the same form as in a prototype, so it can be read as an argument
list: the reading gives the parameters that it was written from.

* `returnsVoid_iff`: when a function returns nothing;
* `paramList_declaredParameters`: the declared list is read back;
* `declaredParameters_eq_void_iff`, `passedArguments_eq_empty_iff`: lists without parameters;
* `BeginsWith.unique`: lines are told apart by their first word and the character behind it;
* `return_prefix_callLine_iff`, `callLine_not_mem_linesBefore`: the line of the call;
* `forwarding_of_wrapper` puts it together.
-/

namespace CallBridge

open Text
open Policy (Strategy)

variable {config : Config} {options : Options} {s : Signature} {strategy : Strategy}
  {params : ParamList} {p : Parameter} {mark otherMark : Char} {word other smalls : List Char}
  {line : String}

/-! ## Functions that return nothing -/

/-- The word `void` in letters of either size, with or without blanks around it. -/
def IsVoidText (type : String) : Prop :=
  ∃ before word after, type.toList = before ++ word ++ after ∧
    (∀ b ∈ before, isBlank b = true) ∧ (∀ b ∈ after, isBlank b = true) ∧
    List.Forall₂ (fun c small => c = small ∨ c = small.toUpper) word "void".toList

theorem map_toLower_eq_iff (hsmalls : ∀ small ∈ smalls, small.isLower = true) :
    word.map Char.toLower = smalls ↔
      List.Forall₂ (fun c small => c = small ∨ c = small.toUpper) word smalls := by
  induction smalls generalizing word with
  | nil => rw [List.map_eq_nil_iff, List.forall₂_nil_right_iff]
  | cons small smalls ih =>
    obtain ⟨hsmall, hrest⟩ := List.forall_mem_cons.mp hsmalls
    cases word with
    | nil => exact iff_of_false nofun nofun
    | cons c word =>
      rw [List.map_cons, List.cons.injEq, toLower_eq_iff hsmall, ih hrest, List.forall₂_cons]

theorem returnsVoid_iff : s.returnsVoid = true ↔ IsVoidText s.returnType := by
  have hsmalls : ∀ small ∈ "void".toList, small.isLower = true := forall_mem_of_all (by decide)
  have hlower : s.returnsVoid = true ↔ (trim s.returnType.toList).map Char.toLower = "void".toList := by
    rw [Signature.returnsVoid, beq_iff_eq, ← String.toList_inj, asciiLower, trimmed,
      String.toList_ofList, String.toList_ofList]
  rw [hlower]
  constructor
  · intro hvoid
    obtain ⟨after, hafter, htype⟩ := exists_eq_append_trim s.returnType.toList
    exact ⟨_, _, after, by rw [List.append_assoc]; exact htype, fun _ => List.mem_takeWhile_imp,
      hafter, (map_toLower_eq_iff hsmalls).mp hvoid⟩
  · rintro ⟨before, word, after, htype, hbefore, hafter, hword⟩
    rw [← map_toLower_eq_iff hsmalls] at hword
    have hvoid : ∀ d ∈ "void".toList, isBlank d = false := forall_mem_of_all (by decide)
    have hfull : ∀ c ∈ word, isBlank c = false := by
      intro c hc
      rw [← isBlank_toLower]
      exact hvoid _ (hword ▸ List.mem_map_of_mem hc)
    have htrimmed : IsTrimmed word :=
      ⟨fun c hc => hfull c (List.mem_of_mem_head? hc), fun c hc => hfull c (List.mem_of_mem_getLast? hc)⟩
    rw [htype, trim_append_blanks hafter, trim_blanks_append hbefore, trim_eq_self htrimmed, hword]

example : Signature.returnsVoid ⟨"glEnd", " VOID", .void⟩ = true := by decide +kernel

namespace Generated

/-! ## Parameters -/

/-- A parameter that a wrapper can take: a type text without commas and brackets, in which not every
word is a qualifier, and a name of identifier characters. -/
structure IsTakeable (p : Parameter) : Prop where
  typeText : IsTypeText p.type.toList
  comma_free : ',' ∉ p.type.toList
  bracket_free : '[' ∉ p.type.toList
  typed : ∃ word ∈ words p.type.toList, word ∉ Header.qualifiers
  name_ident : ∀ c ∈ p.name.toList, isIdentChar c = true

/-- A parameter under the name that it has in a wrapper. -/
def taken (p : Parameter) : Parameter :=
  ⟨p.type, p.name ++ "_"⟩

/-- No word that names a type ends in an underscore, so a parameter of a wrapper has a name that is
read as one. -/
theorem isArgument_taken (h : IsTakeable p) : Header.IsArgument (taken p) where
  typeText := h.typeText
  comma_free := h.comma_free
  bracket_free := h.bracket_free
  typed := h.typed
  name_ne_nil := by
    rw [taken, String.toList_append]
    exact List.append_ne_nil_of_right_ne_nil _ (by decide)
  name_ident := by
    rw [taken, String.toList_append]
    exact List.forall_mem_append.mpr ⟨h.name_ident, forall_mem_of_all (by decide)⟩
  name_free := by
    have hlast : ∀ word ∈ Header.typeWords, word.getLast? ≠ some '_' := by decide
    have hname : (taken p).name.toList = p.name.toList ++ ['_'] := String.toList_append
    intro hmem
    exact hlast _ hmem (by rw [hname, List.getLast?_concat])

/-- A wrapper declares its parameters as a prototype does. -/
theorem declaredParameters_eq (params : ParamList) :
    declaredParameters params = Signature.paramText (.ofList (params.toList.map taken)) := by
  unfold declaredParameters Signature.paramText ParamList.isEmpty
  rw [ParamList.toList_ofList, List.isEmpty_map, List.map_map]
  rfl

/-- The list that a wrapper declares is read as the parameters that it takes. -/
theorem paramList_declaredParameters (h : ∀ p ∈ params.toList, IsTakeable p) :
    Header.paramList (declaredParameters params).toList = .ok (.ofList (params.toList.map taken)) := by
  rw [declaredParameters_eq]
  refine Header.paramList_paramText ?_ ?_
  · cases params.toList <;> nofun
  · rw [ParamList.toList_ofList]
    exact List.forall_mem_map.mpr fun p hp => isArgument_taken (h p hp)

theorem declaredParameters_eq_void_iff (h : ∀ p ∈ params.toList, IsTakeable p) :
    declaredParameters params = "void" ↔ params.toList = [] := by
  constructor
  · intro hvoid
    have hread := paramList_declaredParameters h
    have hnone : Header.paramList "void".toList = .ok .void := rfl
    rw [hvoid, hnone, Except.ok.injEq] at hread
    have htaken := congrArg ParamList.toList hread
    rw [ParamList.toList_ofList] at htaken
    exact List.map_eq_nil_iff.mp htaken.symm
  · intro hnil
    rw [declaredParameters, ParamList.isEmpty, hnil]
    rfl

theorem passedArguments_eq_empty_iff : passedArguments params = "" ↔ params.toList = [] := by
  rw [passedArguments, ← String.toList_inj, toList_intercalate]
  cases params.toList with
  | nil => exact iff_of_true rfl rfl
  | cons p ps =>
    refine iff_of_false (fun hempty => ?_) (List.cons_ne_nil p ps)
    have hfirst := prefix_joinWith ", ".toList (forwardedName p.name).toList
      ((ps.map fun p => forwardedName p.name).map String.toList)
    rw [List.map_cons, List.map_cons] at hempty
    rw [hempty, String.toList_empty, List.prefix_nil, forwardedName, String.toList_append] at hfirst
    exact List.append_ne_nil_of_right_ne_nil _ (by decide) hfirst

/-! ## Lines -/

/-- What a wrapper calls: the function, or the pointer that has been resolved. -/
def callee (s : Signature) : Strategy → String
  | .direct => s.name
  | .resolved => "RESOLVED_PROC(" ++ s.procType ++ ")"

/-- The lines of a wrapper between its opening brace and the call. -/
def linesBefore (config : Config) (options : Options) (s : Signature) : Strategy → List String
  | .direct => if options.trace then tracingLines config s .direct else []
  | .resolved =>
    resolveLine config s :: ((if options.trace then tracingLines config s .resolved else []) ++ [""])

theorem bodyLines_eq :
    bodyLines config options s strategy =
      linesBefore config options s strategy ++ [callLine s strategy] := by
  cases strategy with
  | direct => rfl
  | resolved =>
    simp only [bodyLines, linesBefore, tracingLines, List.append_assoc, List.cons_append,
      List.nil_append]

theorem callLine_eq :
    callLine s strategy =
      "  " ++ returnWord s ++ callee s strategy ++ "(" ++ passedArguments s.params ++ ");" := by
  cases strategy with
  | direct => rfl
  | resolved =>
    have hcallee : callee s .resolved = "RESOLVED_PROC(" ++ s.procType ++ ")" := rfl
    have hclose : ∀ front : String, front ++ ")" ++ "(" = front ++ ")(" := fun _ =>
      String.append_assoc
    rw [callLine, hcallee, ← String.append_assoc, ← String.append_assoc, hclose]

/-- A line begins with two spaces, a word and a character that ends the word. -/
structure BeginsWith (word : List Char) (mark : Char) (line : String) : Prop where
  word_ident : ∀ c ∈ word, isIdentChar c = true
  mark_not_ident : isIdentChar mark = false
  isPrefix : "  ".toList ++ word ++ [mark] <+: line.toList

theorem BeginsWith.unique (h : BeginsWith word mark line) (hother : BeginsWith other otherMark line) :
    word = other ∧ mark = otherMark := by
  obtain ⟨rest, hrest⟩ := h.isPrefix
  obtain ⟨otherRest, hotherRest⟩ := hother.isPrefix
  have heq : word ++ mark :: rest = other ++ otherMark :: otherRest := by
    simpa only [List.append_assoc, List.append_cancel_left_eq, List.singleton_append] using
      hrest.trans hotherRest.symm
  obtain ⟨hword, hmark⟩ := eq_of_append_stop h.word_ident (forall_head?_cons h.mark_not_ident rest)
    hother.word_ident (forall_head?_cons hother.mark_not_ident otherRest) heq
  exact ⟨hword, (List.cons.inj hmark).1⟩

theorem beginsWith_append {front : String} (hword : ∀ c ∈ word, isIdentChar c = true)
    (hmark : isIdentChar mark = false) (hfront : "  ".toList ++ word ++ [mark] <+: front.toList)
    (rest : String) : BeginsWith word mark (front ++ rest) where
  word_ident := hword
  mark_not_ident := hmark
  isPrefix := by
    rw [String.toList_append]
    exact hfront.trans (List.prefix_append _ _)

theorem traceLine_beginsWith : BeginsWith "if".toList ' ' (traceLine config s) := by
  simp only [traceLine, String.append_assoc]
  exact beginsWith_append (forall_mem_of_all (by decide)) (by decide) (by decide) _

theorem resolve_beginsWith :
    BeginsWith "RESOLVE".toList '(' ("  RESOLVE(" ++ s.procType ++ ", " ++ literal s.name ++ ");") := by
  simp only [String.append_assoc]
  exact beginsWith_append (forall_mem_of_all (by decide)) (by decide) (by decide) _

theorem resolveRet_beginsWith :
    BeginsWith "RESOLVE_RET".toList '(' ("  RESOLVE_RET(" ++ s.procType ++ ", " ++ literal s.name ++
      ", " ++ config.failureSentinel ++ ");") := by
  simp only [String.append_assoc]
  exact beginsWith_append (forall_mem_of_all (by decide)) (by decide) (by decide) _

theorem callLine_beginsWith_return (h : s.returnsVoid = false) :
    BeginsWith "return".toList ' ' (callLine s strategy) := by
  have hfront : "  " ++ "return " = "  return " := rfl
  rw [callLine_eq, returnWord, h, if_neg Bool.false_ne_true, hfront]
  simp only [String.append_assoc]
  exact beginsWith_append (forall_mem_of_all (by decide)) (by decide) (by decide) _

theorem callLine_direct_beginsWith (hname : ∀ c ∈ s.name.toList, isIdentChar c = true)
    (h : s.returnsVoid = true) : BeginsWith s.name.toList '(' (callLine s .direct) := by
  have hfront : "  ".toList ++ s.name.toList ++ ['('] <+: ("  " ++ s.name ++ "(").toList := by
    rw [String.toList_append, String.toList_append]
    exact List.prefix_rfl
  rw [callLine, returnWord, h, if_pos rfl, String.append_empty, String.append_assoc]
  exact beginsWith_append hname (by decide) hfront _

theorem callLine_resolved_beginsWith (h : s.returnsVoid = true) :
    BeginsWith "RESOLVED_PROC".toList '(' (callLine s .resolved) := by
  have hfront : "  " ++ "RESOLVED_PROC(" = "  RESOLVED_PROC(" := rfl
  rw [callLine, returnWord, h, if_pos rfl, String.append_empty, hfront]
  simp only [String.append_assoc]
  exact beginsWith_append (forall_mem_of_all (by decide)) (by decide) (by decide) _

theorem exists_callLine_beginsWith (hname : ∀ c ∈ s.name.toList, isIdentChar c = true)
    (h : s.returnsVoid = true) : ∃ called, BeginsWith called '(' (callLine s strategy) := by
  cases strategy with
  | direct => exact ⟨_, callLine_direct_beginsWith hname h⟩
  | resolved => exact ⟨_, callLine_resolved_beginsWith h⟩

/-- Only a function that returns something is called behind `return`: no name of a function goes on
with a space. -/
theorem return_prefix_callLine_iff (hname : ∀ c ∈ s.name.toList, isIdentChar c = true) :
    "  return ".toList <+: (callLine s strategy).toList ↔ s.returnsVoid = false := by
  constructor
  · intro hprefix
    rw [Bool.eq_false_iff]
    intro hvoid
    have hreturn : BeginsWith "return".toList ' ' (callLine s strategy) :=
      ⟨forall_mem_of_all (by decide), by decide, hprefix⟩
    obtain ⟨called, hcalled⟩ := exists_callLine_beginsWith hname hvoid
    exact absurd (hreturn.unique hcalled).2 (by decide)
  · intro hvalue
    exact (callLine_beginsWith_return hvalue).isPrefix

theorem resolveLine_of_void (h : s.returnsVoid = true) :
    resolveLine config s = "  RESOLVE(" ++ s.procType ++ ", " ++ literal s.name ++ ");" :=
  if_pos h

theorem resolveLine_of_value (h : s.returnsVoid = false) :
    resolveLine config s = "  RESOLVE_RET(" ++ s.procType ++ ", " ++ literal s.name ++ ", " ++
      config.failureSentinel ++ ");" :=
  if_neg (Bool.eq_false_iff.mp h)

/-- The two ways to resolve a function are told apart by their first word. -/
theorem resolve_ne_resolveRet :
    "  RESOLVE(" ++ s.procType ++ ", " ++ literal s.name ++ ");" ≠
      "  RESOLVE_RET(" ++ s.procType ++ ", " ++ literal s.name ++ ", " ++ config.failureSentinel ++
        ");" := by
  intro heq
  have hresolve := resolve_beginsWith (s := s)
  rw [heq] at hresolve
  exact absurd (hresolve.unique resolveRet_beginsWith).1 (by decide)

theorem resolveLine_eq_resolve_iff :
    resolveLine config s = "  RESOLVE(" ++ s.procType ++ ", " ++ literal s.name ++ ");" ↔
      s.returnsVoid = true := by
  cases hvoid : s.returnsVoid with
  | true => exact iff_of_true (resolveLine_of_void hvoid) rfl
  | false =>
    rw [resolveLine_of_value hvoid]
    exact iff_of_false resolve_ne_resolveRet.symm Bool.false_ne_true

theorem resolveLine_eq_resolveRet_iff :
    resolveLine config s = "  RESOLVE_RET(" ++ s.procType ++ ", " ++ literal s.name ++ ", " ++
        config.failureSentinel ++ ");" ↔ s.returnsVoid = false := by
  cases hvoid : s.returnsVoid with
  | false => exact iff_of_true (resolveLine_of_value hvoid) rfl
  | true =>
    rw [resolveLine_of_void hvoid]
    exact iff_of_false resolve_ne_resolveRet Bool.false_ne_true.symm

theorem callLine_ne_traceLine (hname : ∀ c ∈ s.name.toList, isIdentChar c = true) :
    callLine s strategy ≠ traceLine config s := by
  intro heq
  have hif : BeginsWith "if".toList ' ' (callLine s strategy) := heq ▸ traceLine_beginsWith
  cases hvoid : s.returnsVoid with
  | true =>
    obtain ⟨called, hcalled⟩ := exists_callLine_beginsWith hname hvoid
    exact absurd (hif.unique hcalled).2 (by decide)
  | false => exact absurd (hif.unique (callLine_beginsWith_return hvoid)).1 (by decide)

theorem callLine_ne_resolveLine : callLine s .resolved ≠ resolveLine config s := by
  intro heq
  cases hvoid : s.returnsVoid with
  | true =>
    have hcalled : BeginsWith "RESOLVED_PROC".toList '(' (resolveLine config s) :=
      heq ▸ callLine_resolved_beginsWith hvoid
    rw [resolveLine_of_void hvoid] at hcalled
    exact absurd (hcalled.unique resolve_beginsWith).1 (by decide)
  | false =>
    have hreturn : BeginsWith "return".toList ' ' (resolveLine config s) :=
      heq ▸ callLine_beginsWith_return hvoid
    rw [resolveLine_of_value hvoid] at hreturn
    exact absurd (hreturn.unique resolveRet_beginsWith).2 (by decide)

/-- The line that counts a call ends otherwise than the call, whatever the counter. -/
theorem callLine_ne_countLine (counter : String) :
    callLine s strategy ≠ "  " ++ counter ++ "++;" := by
  have hcall : ");".toList = [')', ';'] := by decide
  have hcount : "++;".toList = ['+'] ++ ['+', ';'] := by decide
  rw [callLine_eq]
  intro heq
  have hchars := congrArg String.toList heq
  rw [String.toList_append (t := ");"), String.toList_append (t := "++;"), hcall, hcount,
    ← List.append_assoc] at hchars
  exact absurd (List.append_inj_right' hchars rfl) (by decide)

theorem callLine_ne_empty : callLine s strategy ≠ "" := by
  rw [callLine_eq]
  exact fun heq => absurd (String.append_eq_empty_iff.mp heq).2 (by decide)

theorem callLine_not_mem_tracingLines (hname : ∀ c ∈ s.name.toList, isIdentChar c = true) :
    callLine s strategy ∉ tracingLines config s strategy := by
  cases strategy with
  | direct =>
    rw [tracingLines, List.mem_cons, List.mem_cons, List.mem_singleton]
    rintro (htrace | hcount | hblank)
    · exact callLine_ne_traceLine hname htrace
    · exact callLine_ne_countLine _ hcount
    · exact callLine_ne_empty hblank
  | resolved =>
    rw [tracingLines, List.mem_cons, List.mem_singleton]
    rintro (hblank | htrace)
    · exact callLine_ne_empty hblank
    · exact callLine_ne_traceLine hname htrace

/-- A wrapper calls in one line only. -/
theorem callLine_not_mem_linesBefore (hname : ∀ c ∈ s.name.toList, isIdentChar c = true) :
    callLine s strategy ∉ linesBefore config options s strategy := by
  have htracing : ∀ traced : Bool,
      callLine s strategy ∉ if traced then tracingLines config s strategy else [] := by
    intro traced
    cases traced with
    | true => exact callLine_not_mem_tracingLines hname
    | false => exact List.not_mem_nil
  cases strategy with
  | direct => exact htracing options.trace
  | resolved =>
    rw [linesBefore, List.mem_cons, List.mem_append, List.mem_singleton]
    rintro (hresolve | htraced | hblank)
    · exact callLine_ne_resolveLine hresolve
    · exact htracing options.trace htraced
    · exact callLine_ne_empty hblank

/-! ## The whole wrapper -/

/-- A function that a wrapper can call. -/
structure IsCallable (s : Signature) : Prop where
  name_ident : ∀ c ∈ s.name.toList, isIdentChar c = true
  params : ∀ p ∈ s.params.toList, IsTakeable p

/-- A wrapper passes on what it declares.

* Its text is a head with the list that it declares, one line with the call, and what stands around
  the call.
* The declared list can be read as the argument list of a prototype, and the reading gives the
  parameters of the function in order, each with its type and under its own name with an underscore.
  What is passed on is the names that are read, in order.
* The declared list is `void` if and only if there are no parameters, and then nothing is passed on.
* The call stands behind `return` if and only if the function returns something.  Then, and only then,
  a pointer is resolved with the failure sentinel. -/
theorem forwarding_of_wrapper (config : Config) (options : Options) (strategy : Strategy)
    (h : IsCallable s) :
    let declared := declaredParameters s.params
    let passed := passedArguments s.params
    let call := "  " ++ returnWord s ++ callee s strategy ++ "(" ++ passed ++ ");"
    let before := linesBefore config options s strategy
    (wrapper config options s strategy).text =
        unlines ([(if options.isStatic then "static " else "") ++ s.returnType ++ " " ++
          config.wrapperName s.name ++ "(" ++ declared ++ ")", "\x7b"] ++ before ++
            [call, "\x7d", ""]) ∧
      call ∉ before ∧
      (∃ params, Header.paramList declared.toList = .ok params ∧
        params.toList = s.params.toList.map taken ∧
        passed = String.intercalate ", " (params.toList.map Parameter.name)) ∧
      (declared = "void" ↔ s.params.toList = []) ∧
      (passed = "" ↔ declared = "void") ∧
      ("  return ".toList <+: call.toList ↔ ¬ IsVoidText s.returnType) ∧
      (strategy = .resolved → ∃ resolve rest, before = resolve :: rest ∧
        (resolve = "  RESOLVE_RET(" ++ s.procType ++ ", " ++ literal s.name ++ ", " ++
          config.failureSentinel ++ ");" ↔ ¬ IsVoidText s.returnType) ∧
        (resolve = "  RESOLVE(" ++ s.procType ++ ", " ++ literal s.name ++ ");" ↔
          IsVoidText s.returnType)) := by
  intro declared passed call before
  have hcall : call = callLine s strategy := callLine_eq.symm
  have hdeclared : declared = "void" ↔ s.params.toList = [] := declaredParameters_eq_void_iff h.params
  have hpassed : passed = "" ↔ s.params.toList = [] := passedArguments_eq_empty_iff
  have hvalue : s.returnsVoid = false ↔ ¬ IsVoidText s.returnType := by
    rw [← returnsVoid_iff, Bool.not_eq_true]
  refine ⟨?_, ?_, ⟨.ofList (s.params.toList.map taken), ?_, ?_, ?_⟩, hdeclared,
    hpassed.trans hdeclared.symm, ?_, ?_⟩
  · rw [hcall, wrapper, bodyLines_eq]
    simp only [headLine, List.append_assoc, List.cons_append, List.nil_append]
    rfl
  · rw [hcall]
    exact callLine_not_mem_linesBefore h.name_ident
  · exact paramList_declaredParameters h.params
  · exact ParamList.toList_ofList _
  · rw [ParamList.toList_ofList, List.map_map]
    rfl
  · rw [hcall, return_prefix_callLine_iff h.name_ident, hvalue]
  · rintro rfl
    exact ⟨_, _, rfl, resolveLine_eq_resolveRet_iff.trans hvalue,
      resolveLine_eq_resolve_iff.trans returnsVoid_iff⟩

/-- A wrapper of a function that returns a pointer and takes one. -/
theorem forwarding_mapBuffer :
    let s : Signature :=
      ⟨"glMapBuffer", "void *", .list [⟨"GLenum", "target"⟩, ⟨"const void *const *", "data"⟩]⟩
    declaredParameters s.params = "GLenum target_, const void *const *data_" ∧
      (∃ params, Header.paramList (declaredParameters s.params).toList = .ok params ∧
        params.toList = [⟨"GLenum", "target_"⟩, ⟨"const void *const *", "data_"⟩] ∧
        passedArguments s.params = String.intercalate ", " (params.toList.map Parameter.name)) ∧
      ¬ IsVoidText s.returnType := by
  intro s
  have htarget : IsTakeable ⟨"GLenum", "target"⟩ := by
    refine ⟨⟨?_, ?_⟩, ?_, ?_, ?_, forall_mem_of_all ?_⟩ <;> decide +kernel
  have hdata : IsTakeable ⟨"const void *const *", "data"⟩ := by
    refine ⟨⟨?_, ?_⟩, ?_, ?_, ?_, forall_mem_of_all ?_⟩ <;> decide +kernel
  have hcallable : IsCallable s :=
    ⟨forall_mem_of_all (by decide +kernel),
      List.forall_mem_cons.mpr ⟨htarget, List.forall_mem_singleton.mpr hdata⟩⟩
  obtain ⟨-, -, hread, -, -, hreturn, -⟩ := forwarding_of_wrapper {} {} .direct hcallable
  exact ⟨by decide +kernel, hread, hreturn.mp (by decide +kernel)⟩

end Generated

end CallBridge

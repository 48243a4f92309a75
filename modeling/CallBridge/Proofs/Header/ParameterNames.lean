import CallBridge.Generated.Wrapper
import CallBridge.Proofs.Header.Offences
import Mathlib.Data.List.Nodup

/-!
# Names of parameters

A parameter is called by the identifier at the end of its argument, or by `p` and its index if the
argument has no name.  The two kinds of names are not kept apart: an argument may be called `p1`
itself.

* `forall₂_of_paramList`: each parameter is that of the argument in its place;
* `parameter?_name`, `names_of_paramList`: the names of the parameters of an argument list;
* `nodup_mapIdx_getD_iff`: when labels, some of them given and the others made up from the index,
  are pairwise different;
* `nodup_names_iff`: the same for the names of parameters, and for their names in a wrapper;
* `names_clash`: two arguments, one of them with a name, that come to the same name.
-/

namespace CallBridge

open Text

section Labels

variable {α β : Type} {given : α → Option β} {madeUp : Nat → β}

theorem pairwise_zipIdx_snd_ne (xs : List α) : xs.zipIdx.Pairwise fun x y => x.2 ≠ y.2 := by
  refine List.pairwise_map.mp ?_
  rw [List.zipIdx_map_snd]
  exact List.nodup_range'

/-- Labels that are given or made up from the index are pairwise different if and only if those given
are, and none of those made up is given elsewhere. -/
theorem nodup_mapIdx_getD_iff (hinjective : Function.Injective madeUp) (xs : List α) :
    (xs.mapIdx fun index x => (given x).getD (madeUp index)).Nodup ↔
      (xs.filterMap given).Nodup ∧
        ∀ index x, xs[index]? = some x → given x = none → madeUp index ∉ xs.filterMap given := by
  have hgiven : xs.filterMap given = xs.zipIdx.filterMap (given ∘ Prod.fst) := by
    rw [← List.filterMap_map, List.zipIdx_map_fst]
  have hpairs : (xs.zipIdx.filterMap (given ∘ Prod.fst)).Nodup ↔
      xs.zipIdx.Pairwise fun x y => ∀ a, given x.1 = some a → ∀ b, given y.1 = some b → a ≠ b :=
    List.pairwise_filterMap
  rw [List.mapIdx_eq_zipIdx_map, hgiven, hpairs]
  simp only [List.mem_filterMap, Function.comp_apply, ← List.mk_mem_zipIdx_iff_getElem?]
  constructor
  · intro hlabels
    refine ⟨(List.pairwise_map.mp hlabels).imp fun hne a ha b hb => by simpa [ha, hb] using hne, ?_⟩
    rintro index x hx hnone ⟨y, hy, hlabel⟩
    have hsame : (x, index) = y :=
      List.inj_on_of_nodup_map hlabels hx hy (by rw [hnone, hlabel]; rfl)
    rw [← hsame, hnone] at hlabel
    contradiction
  · rintro ⟨happart, hfree⟩
    refine List.pairwise_map.mpr ((happart.and (pairwise_zipIdx_snd_ne xs)).imp_of_mem ?_)
    rintro ⟨x, i⟩ ⟨y, j⟩ hx hy ⟨happart, hindex⟩ hsame
    cases hgx : given x with
    | none =>
      cases hgy : given y with
      | none =>
        simp only [hgx, hgy, Option.getD_none] at hsame
        exact hindex (hinjective hsame)
      | some b =>
        simp only [hgx, hgy, Option.getD_none, Option.getD_some] at hsame
        exact hfree i x hx hgx ⟨(y, j), hy, by rw [hgy, hsame]⟩
    | some a =>
      cases hgy : given y with
      | none =>
        simp only [hgx, hgy, Option.getD_none, Option.getD_some] at hsame
        exact hfree j y hy hgy ⟨(x, i), hx, by rw [hgx, hsame]⟩
      | some b =>
        simp only [hgx, hgy, Option.getD_some] at hsame
        exact happart a hgx b hgy hsame

end Labels

namespace Header

open Generated (forwardedName declaredParameters)

variable {argument list : List Char} {arguments : List (List Char)} {index offset : Nat}
  {p : Parameter} {ps : List Parameter} {params : ParamList}

/-- The name that an argument carries itself. -/
def explicitName? (argument : List Char) : Option String :=
  let (before, name) := splitName (argumentBase argument)
  if isNameless before name then none else some (String.ofList name)

/-- The name of a parameter whose argument carries none. -/
def syntheticName (index : Nat) : String :=
  "p" ++ toString index

/-- The names that arguments carry are pairwise different, and none of them is the synthetic name of
an argument without one. -/
structure NamesApart (arguments : List (List Char)) : Prop where
  explicit : (arguments.filterMap explicitName?).Nodup
  synthetic : ∀ index argument, arguments[index]? = some argument → explicitName? argument = none →
    syntheticName index ∉ arguments.filterMap explicitName?

/-! ## One argument -/

theorem syntheticName_injective : Function.Injective syntheticName := by
  intro i j h
  have hchars := congrArg String.toList h
  rw [syntheticName, syntheticName, String.toList_append, String.toList_append] at hchars
  have hdigits : Nat.toDigits 10 i = Nat.toDigits 10 j := by
    rw [← Nat.toList_repr, ← Nat.toList_repr]
    exact List.append_cancel_left hchars
  have hvalue : ∀ n, Nat.ofDigitChars 10 (Nat.toDigits 10 n) 0 = n := fun n =>
    Nat.ofDigitChars_toDigits (by decide) (by decide)
  rw [← hvalue i, hdigits, hvalue]

/-- Trimming takes nothing away from identifier characters. -/
theorem trimmed_of_isIdentChar {s : String} (h : ∀ c ∈ s.toList, isIdentChar c = true) :
    trimmed s = s := by
  rw [trimmed, trim_eq_self (isTrimmed_of_isIdentChar h), String.ofList_toList]

theorem isIdentChar_of_mem_syntheticName : ∀ c ∈ (syntheticName index).toList, isIdentChar c = true := by
  intro c hc
  rw [syntheticName, String.toList_append, List.mem_append] at hc
  rcases hc with hletter | hdigit
  · obtain rfl := List.mem_singleton.mp hletter
    decide
  · have hdecimal : c.isDigit = true :=
      Nat.isDigit_of_mem_toDigits (by decide) (by decide) (Nat.toList_repr ▸ hdigit)
    simp [isIdentChar, Char.isAlphanum, hdecimal]

/-- A parameter has the name of its argument, or the synthetic one. -/
theorem parameter?_name (h : parameter? index argument = some p) :
    p.name = (explicitName? argument).getD (syntheticName index) := by
  obtain ⟨-, -, hname⟩ := splitName_spec (argumentBase argument)
  unfold parameter? at h
  simp only at h
  split at h
  · contradiction
  · obtain rfl := Option.some.inj h
    rw [explicitName?, Parameter.normal]
    simp only
    split
    · exact trimmed_of_isIdentChar isIdentChar_of_mem_syntheticName
    · refine trimmed_of_isIdentChar ?_
      rw [String.toList_ofList]
      exact hname

/-! ## The list -/

/-- Each parameter is that of the argument in its place. -/
theorem forall₂_of_parametersFrom (h : parametersFrom index offset arguments = .ok ps) :
    List.Forall₂ (fun x p => parameter? x.2 x.1 = some p) (arguments.zipIdx index) ps := by
  induction arguments generalizing index offset ps with
  | nil =>
    obtain rfl := Except.ok.inj h
    exact .nil
  | cons argument arguments ih =>
    rw [parametersFrom] at h
    split at h
    · contradiction
    · split at h
      · contradiction
      · rename_i p hp
        obtain ⟨qs, hqs, hps⟩ := bind_eq_ok_iff.mp h
        obtain rfl := Except.ok.inj hps
        rw [List.zipIdx_cons]
        exact .cons hp (ih hqs)

theorem forall₂_of_paramList (h : paramList list = .ok params) :
    List.Forall₂ (fun x p => parameter? x.2 x.1 = some p) (argumentsOf list).zipIdx params.toList := by
  rw [paramList_eq] at h
  obtain ⟨ps, hps, hparams⟩ := bind_eq_ok_iff.mp h
  obtain rfl := Except.ok.inj hparams
  rw [ParamList.toList_ofList]
  exact forall₂_of_parametersFrom hps

/-- The names of the parameters of an argument list, in the order of its arguments. -/
theorem names_of_paramList (h : paramList list = .ok params) :
    params.toList.map (·.name) = (argumentsOf list).mapIdx fun index argument =>
      (explicitName? argument).getD (syntheticName index) := by
  rw [List.mapIdx_eq_zipIdx_map, eq_comm, ← List.forall₂_eq_eq_eq, List.forall₂_map_left_iff,
    List.forall₂_map_right_iff]
  exact (forall₂_of_paramList h).imp fun _ _ hp => (parameter?_name hp).symm

theorem forwardedName_injective : Function.Injective forwardedName := by
  intro name other h
  have hchars := congrArg String.toList h
  rw [forwardedName, forwardedName, String.toList_append, String.toList_append] at hchars
  exact String.toList_inj.mp (List.append_cancel_right hchars)

/-- When the names of parameters are pairwise different.

* A parameter has the name that its argument carries, or the synthetic name of its index.
* The names are pairwise different if and only if those carried are, and none of those is the
  synthetic name of an argument without one.
* The same goes for the names under which a wrapper takes the parameters and passes them on. -/
theorem nodup_names_iff (h : paramList list = .ok params) :
    (params.toList.map (·.name) = (argumentsOf list).mapIdx fun index argument =>
      (explicitName? argument).getD (syntheticName index)) ∧
    ((params.toList.map (·.name)).Nodup ↔ NamesApart (argumentsOf list)) ∧
    ((params.toList.map fun p => forwardedName p.name).Nodup ↔ NamesApart (argumentsOf list)) := by
  have hnames := names_of_paramList h
  have hapart : (params.toList.map (·.name)).Nodup ↔ NamesApart (argumentsOf list) := by
    rw [hnames, nodup_mapIdx_getD_iff syntheticName_injective]
    exact ⟨fun h => ⟨h.1, h.2⟩, fun h => ⟨h.explicit, h.synthetic⟩⟩
  have hforwarded : (params.toList.map fun p => forwardedName p.name) =
      (params.toList.map (·.name)).map forwardedName := by
    rw [List.map_map]
    rfl
  refine ⟨hnames, hapart, ?_⟩
  rw [hforwarded, List.nodup_map_iff forwardedName_injective]
  exact hapart

/-- Two arguments with a name and one without. -/
theorem names_of_glCallLists :
    ∃ params, paramList "GLsizei n, const GLubyte, const GLvoid *lists".toList = .ok params ∧
      (params.toList.map fun p => forwardedName p.name) = ["n_", "p1_", "lists_"] ∧
      NamesApart (argumentsOf "GLsizei n, const GLubyte, const GLvoid *lists".toList) := by
  have hparams : paramList "GLsizei n, const GLubyte, const GLvoid *lists".toList =
      .ok (.list [⟨"GLsizei", "n"⟩, ⟨"const GLubyte", "p1"⟩, ⟨"const GLvoid *", "lists"⟩]) := by
    decide +kernel
  refine ⟨_, hparams, by decide, (nodup_names_iff hparams).2.2.mp ?_⟩
  decide

/-- The name of the first argument is the synthetic name of the second one. -/
theorem names_clash :
    ((argumentsOf "GLint p1, GLint".toList).filterMap explicitName?).Nodup ∧
    ∃ params, paramList "GLint p1, GLint".toList = .ok params ∧
      ¬ (params.toList.map (·.name)).Nodup ∧
      ¬ (params.toList.map fun p => forwardedName p.name).Nodup ∧
      declaredParameters params = "GLint p1_, GLint p1_" :=
  ⟨by decide +kernel, .list [⟨"GLint", "p1"⟩, ⟨"GLint", "p1"⟩], by decide +kernel, by decide,
    by decide, by decide +kernel⟩

end Header

end CallBridge

import CallBridge.Failure
import CallBridge.Proofs.Header.Offences
import Mathlib.Data.List.Infix

/-!
# What becomes of a header

A header is read line by line.  Its prototypes are declared in order, each under the feature of
the nearest section comment before it, and no other line has any effect.  Reading ends at the
first argument that offends: with a report of its line if it is blank, and without one if it
cannot be split.

* `declarationsFrom_eq_mapM`: reading the lines of a header is declaring its prototypes one by
  one;
* `Place.declaration_eq_ok_iff`, `Place.declaration_eq_error_iff`: one prototype;
* `Source.outcome_of_header`: the whole header.
-/

namespace CallBridge

open Text

namespace Header

/-- The prototype of a line that is no section comment. -/
def prototype? (line : List Char) : Option Prototype :=
  match sectionFeature? (trim line) with
  | some _ => none
  | none => Prototype.find? (trim line)

/-- The declaration that a prototype under a feature comes to. -/
structure Prototype.Declares (p : Prototype) (feature : String) (d : Declaration) : Prop where
  feature_eq : d.feature = feature
  name_eq : d.signature.name = trimmed (String.ofList p.name)
  returnType_eq : d.signature.returnType = normalizeType (String.ofList p.returnType)
  params_eq : paramList p.arguments = .ok d.signature.params

/-- The feature of the nearest section comment among the lines before a place. -/
def featureBehind (before : List (List Char)) : String :=
  (before.filterMap fun line => sectionFeature? (trim line)).getLast?.getD initialFeature

/-- A prototype, the line it stands on and the lines before that one. -/
structure Place where
  before : List (List Char)
  line : List Char
  prototype : Prototype

namespace Place

/-- The number of the line, counted from one. -/
def number (place : Place) : Nat :=
  place.before.length + 1

/-- The feature that the prototype is declared under. -/
def feature (place : Place) : String :=
  featureBehind place.before

/-- The arguments of the prototype. -/
def arguments (place : Place) : List (List Char) :=
  argumentsOf place.prototype.arguments

/-- Whether some argument of the prototype cannot be read. -/
def Offends (place : Place) : Prop :=
  ∃ argument ∈ place.arguments, Header.Offends argument

/-- The report of a blank argument behind others. -/
def blankReport (place : Place) (front : List (List Char)) : Report where
  code := "HDR201"
  message := toString (front.length + 1) ++ " 番目の引数が空です"
  line := some place.number
  column := some (argumentColumn place.line place.prototype.arguments (span front))
  snippet := some (String.ofList place.line)

/-- The failure that an argument behind others brings about. -/
inductive Fails (place : Place) (front : List (List Char)) (argument : List Char) :
    Failure → Prop where
  | blank (h : IsBlankArgument argument) :
      Fails place front argument (.source (place.blankReport front))
  | unsplittable (h : IsUnsplittable argument) : Fails place front argument .brokenOff

/-- What reading the prototype gives. -/
def declaration (place : Place) : Except Fault Declaration :=
  Header.declaration place.feature place.number place.line place.prototype

end Place

/-- The prototypes of lines that stand behind others. -/
def placesBehind (before ls : List (List Char)) : List Place :=
  (ls.inits.zip ls).filterMap fun (front, line) =>
    (prototype? line).map fun p => ⟨before ++ front, line, p⟩

/-- The prototypes of a header, in the order of their lines. -/
def places (ls : List (List Char)) : List Place :=
  placesBehind [] ls

/-- The lines of a header that are section comments or prototypes. -/
def linesThatCount (ls : List (List Char)) : List (List Char) :=
  ls.filter fun line => (sectionFeature? (trim line)).isSome || (prototype? line).isSome

variable {before ls : List (List Char)} {line : List Char} {place : Place}

/-! ## One line -/

theorem featureBehind_concat (before : List (List Char)) (line : List Char) :
    featureBehind (before ++ [line]) =
      (sectionFeature? (trim line)).getD (featureBehind before) := by
  unfold featureBehind
  rw [List.filterMap_append]
  cases hsection : sectionFeature? (trim line) with
  | none => simp [hsection]
  | some feature => simp [hsection]

theorem placesBehind_cons (before : List (List Char)) (line : List Char) (ls : List (List Char)) :
    placesBehind before (line :: ls) =
      (prototype? line).toList.map (⟨before, line, ·⟩) ++ placesBehind (before ++ [line]) ls := by
  unfold placesBehind
  rw [List.inits_cons, List.zip_cons_cons, List.zip_map_left, List.filterMap_cons]
  simp only [List.filterMap_map, Function.comp_def, Prod.map, id_eq, List.append_nil,
    List.append_assoc, List.singleton_append]
  cases prototype? line with
  | none => rfl
  | some p => rfl

/-- A prototype has a place on its line, behind the lines before that one. -/
theorem exists_of_mem_placesBehind (h : place ∈ placesBehind before ls) :
    ∃ front back, place.before = before ++ front ∧ ls = front ++ place.line :: back ∧
      prototype? place.line = some place.prototype := by
  induction ls generalizing before with
  | nil => exact absurd h List.not_mem_nil
  | cons line ls ih =>
    rw [placesBehind_cons] at h
    rcases List.mem_append.mp h with hhere | hlater
    · obtain ⟨p, hp, rfl⟩ := List.mem_map.mp hhere
      exact ⟨[], ls, (List.append_nil before).symm, rfl, Option.mem_toList.mp hp⟩
    · obtain ⟨front, back, hbefore, hls, hplace⟩ := ih hlater
      refine ⟨line :: front, back, ?_, congrArg (line :: ·) hls, hplace⟩
      rw [hbefore, List.append_assoc]
      rfl

theorem find?_of_prototype? {p : Prototype} (h : prototype? line = some p) :
    Prototype.find? (trim line) = some p := by
  unfold prototype? at h
  split at h
  · contradiction
  · exact h

theorem lineKind_eq (line : List Char) :
    lineKind line =
      match sectionFeature? (trim line), prototype? line with
      | some feature, _ => .heading feature
      | none, some p => .declares p
      | none, none => .other := by
  unfold lineKind prototype?
  cases sectionFeature? (trim line) with
  | some feature => rfl
  | none => cases Prototype.find? (trim line) <;> rfl

/-- Reading the lines of a header is declaring its prototypes one by one. -/
theorem declarationsFrom_eq_mapM (before ls : List (List Char)) :
    declarationsFrom (featureBehind before) (before.length + 1) ls =
      (placesBehind before ls).mapM Place.declaration := by
  -- The lines read so far give the feature and the number that reading goes on with.
  induction ls generalizing before with
  | nil => rfl
  | cons line ls ih =>
    have ih := ih (before ++ [line])
    rw [featureBehind_concat, List.length_append, List.length_singleton] at ih
    rw [placesBehind_cons, declarationsFrom, lineKind_eq]
    cases hsection : sectionFeature? (trim line) with
    | some feature =>
      have hnone : prototype? line = none := by rw [prototype?, hsection]
      rw [hsection] at ih
      rw [hnone]
      exact ih
    | none =>
      rw [hsection] at ih
      cases prototype? line with
      | none => exact ih
      | some p =>
        show (Place.declaration ⟨before, line, p⟩ >>= fun d =>
          declarationsFrom (featureBehind before) (before.length + 1 + 1) ls >>= fun ds =>
            .ok (d :: ds)) = _
        rw [show declarationsFrom (featureBehind before) (before.length + 1 + 1) ls = _ from ih]
        exact (List.mapM_cons).symm

/-! ## One prototype -/

theorem Place.declaration_eq_ok_iff {d : Declaration} :
    place.declaration = .ok d ↔ place.prototype.Declares place.feature d := by
  unfold Place.declaration Header.declaration
  constructor
  · intro h
    cases hparams : paramList place.prototype.arguments with
    | error fault => rw [hparams] at h; cases fault <;> contradiction
    | ok params =>
      rw [hparams] at h
      obtain rfl := Except.ok.inj h
      exact ⟨rfl, rfl, rfl, hparams⟩
  · rintro ⟨hfeature, hname, htype, hparams⟩
    rw [hparams]
    obtain ⟨⟨name, returnType, params⟩, feature⟩ := d
    cases hfeature
    cases hname
    cases htype
    rfl

/-- A prototype fails as its first offending argument makes it. -/
theorem Place.declaration_eq_error_iff {failure : Failure} :
    (∃ fault, place.declaration = .error fault ∧ Failure.ofHeader fault = failure) ↔
      ∃ front argument, IsFirst Header.Offends place.arguments front argument ∧
        place.Fails front argument failure := by
  unfold Place.declaration Header.declaration
  constructor
  · rintro ⟨fault, hfault, rfl⟩
    cases hparams : paramList place.prototype.arguments with
    | ok params => rw [hparams] at hfault; contradiction
    | error problem =>
      obtain ⟨front, argument, hfirst, hblames⟩ := paramList_eq_error_iff.mp hparams
      refine ⟨front, argument, hfirst, ?_⟩
      rw [hparams] at hfault
      cases hblames with
      | blank hblank => obtain rfl := Except.error.inj hfault; exact .blank hblank
      | cutsCharacter hcut => obtain rfl := Except.error.inj hfault; exact .unsplittable hcut
  · rintro ⟨front, argument, hfirst, hfails⟩
    cases hfails with
    | blank hblank =>
      have hparams := paramList_eq_error_iff.mpr ⟨front, argument, hfirst, .blank hblank⟩
      rw [hparams]
      exact ⟨_, rfl, rfl⟩
    | unsplittable hcut =>
      have hparams := paramList_eq_error_iff.mpr ⟨front, argument, hfirst, .cutsCharacter hcut⟩
      rw [hparams]
      exact ⟨_, rfl, rfl⟩

theorem Place.exists_fails (place : Place) (front : List (List Char)) {argument : List Char}
    (h : Header.Offends argument) : ∃ failure, place.Fails front argument failure :=
  h.elim (fun hblank => ⟨_, .blank hblank⟩) fun hcut => ⟨_, .unsplittable hcut⟩

theorem Place.exists_declaration_eq_error_iff :
    (∃ fault, place.declaration = .error fault) ↔ place.Offends := by
  have hread : (∃ fault, place.declaration = .error fault) ↔
      ¬ ∃ params, paramList place.prototype.arguments = .ok params := by
    unfold Place.declaration Header.declaration
    cases paramList place.prototype.arguments with
    | ok params => simp
    | error fault => cases fault <;> simp
  rw [hread, exists_paramList_eq_ok_iff]
  simp only [not_forall, not_not, exists_prop]
  rfl

/-! ## Lines that count -/

/-- What a prototype at a place is declared from. -/
def Place.content (place : Place) : String × Prototype :=
  (place.feature, place.prototype)

theorem featureBehind_linesThatCount (before : List (List Char)) :
    featureBehind (linesThatCount before) = featureBehind before := by
  have hcounts : ∀ line, (if (sectionFeature? (trim line)).isSome || (prototype? line).isSome
      then sectionFeature? (trim line) else none) = sectionFeature? (trim line) := by
    intro line
    cases hsection : sectionFeature? (trim line) with
    | none => exact ite_self none
    | some feature => rfl
  rw [featureBehind, linesThatCount, List.filterMap_filter]
  simp only [hcounts]
  rfl

theorem map_content_linesThatCount (before ls : List (List Char)) :
    (placesBehind (linesThatCount before) (linesThatCount ls)).map Place.content =
      (placesBehind before ls).map Place.content := by
  induction ls generalizing before with
  | nil => rfl
  | cons line ls ih =>
    have ih := ih (before ++ [line])
    rw [placesBehind_cons, List.map_append, ← ih]
    unfold linesThatCount
    rw [List.filter_append, List.filter_cons, List.filter_cons, List.filter_nil]
    split
    · rw [placesBehind_cons, List.map_append]
      congr 1
      cases prototype? line with
      | none => rfl
      | some p =>
        exact congrArg (fun feature => [(feature, p)]) (featureBehind_linesThatCount before)
    · rename_i hnot
      have hnone : prototype? line = none := by
        cases hp : prototype? line with
        | none => rfl
        | some p => exact absurd (by simp [hp]) hnot
      rw [hnone, List.append_nil]
      rfl

theorem forall₂_declares_iff {found : List Place} {ds : List Declaration} :
    List.Forall₂ (fun place d => place.prototype.Declares place.feature d) found ds ↔
      List.Forall₂ (fun content d => content.2.Declares content.1 d)
        (found.map Place.content) ds := by
  rw [List.forall₂_map_left_iff]
  rfl

/-! ## The whole header -/

theorem declarations_eq_mapM (text : String) :
    declarations text = (places (lines text.toList)).mapM Place.declaration :=
  declarationsFrom_eq_mapM [] (lines text.toList)

end Header

namespace Source

open Header

variable {provenance text api : String} {source : Source}

theorem parse_header_eq (provenance text api : String) :
    Source.parse .header provenance text api =
      match (places (lines text.toList)).mapM Place.declaration with
      | .ok ds => .ok ⟨provenance, ds⟩
      | .error fault => .error (.ofHeader fault) := by
  rw [← declarations_eq_mapM, Source.parse, Source.ofHeader]
  cases Header.declarations text with
  | ok ds => rfl
  | error fault => rfl

theorem parse_header_eq_ok_iff :
    Source.parse .header provenance text api = .ok source ↔
      source.provenance = provenance ∧
        List.Forall₂ (fun place d => place.prototype.Declares place.feature d)
          (places (lines text.toList)) source.pending := by
  simp only [← Place.declaration_eq_ok_iff, ← mapM_eq_ok_iff, parse_header_eq]
  cases (places (lines text.toList)).mapM Place.declaration with
  | error fault =>
    refine iff_of_false nofun ?_
    rintro ⟨-, ⟨⟩⟩
  | ok ds =>
    constructor
    · intro h
      obtain rfl := Except.ok.inj h
      exact ⟨rfl, rfl⟩
    · rintro ⟨rfl, h⟩
      obtain rfl := Except.ok.inj h
      rfl

theorem parse_header_eq_error_iff {failure : Failure} :
    Source.parse .header provenance text api = .error failure ↔
      ∃ earlier place front argument,
        IsFirst Place.Offends (places (lines text.toList)) earlier place ∧
        IsFirst Header.Offends place.arguments front argument ∧
        place.Fails front argument failure := by
  have hfault : Source.parse .header provenance text api = .error failure ↔
      ∃ fault, (places (lines text.toList)).mapM Place.declaration = .error fault ∧
        Failure.ofHeader fault = failure := by
    rw [parse_header_eq]
    cases (places (lines text.toList)).mapM Place.declaration with
    | ok ds =>
      refine iff_of_false nofun ?_
      rintro ⟨fault, ⟨⟩, -⟩
    | error problem =>
      constructor
      · intro h
        exact ⟨problem, rfl, Except.error.inj h⟩
      · rintro ⟨fault, ⟨⟩, rfl⟩
        rfl
  rw [hfault]
  simp only [mapM_eq_error_iff, Place.exists_declaration_eq_error_iff]
  constructor
  · rintro ⟨fault, ⟨earlier, place, hplace, hfault⟩, hfailure⟩
    obtain ⟨front, argument, hfirst, hfails⟩ :=
      Place.declaration_eq_error_iff.mp ⟨fault, hfault, hfailure⟩
    exact ⟨earlier, place, front, argument, hplace, hfirst, hfails⟩
  · rintro ⟨earlier, place, front, argument, hplace, hfirst, hfails⟩
    obtain ⟨fault, hfault, hfailure⟩ :=
      Place.declaration_eq_error_iff.mpr ⟨front, argument, hfirst, hfails⟩
    exact ⟨fault, ⟨earlier, place, hplace, hfault⟩, hfailure⟩

theorem exists_parse_header_eq_ok_iff :
    (∃ source, Source.parse .header provenance text api = .ok source) ↔
      ∀ place ∈ places (lines text.toList), ¬ place.Offends := by
  constructor
  · rintro ⟨source, hsource⟩ place hplace hoffends
    obtain ⟨earlier, first, hfirst⟩ := exists_isFirst_iff.mpr ⟨place, hplace, hoffends⟩
    obtain ⟨front, argument, hargument⟩ := exists_isFirst_iff.mpr hfirst.holds
    obtain ⟨failure, hfails⟩ := first.exists_fails front hargument.holds
    rw [parse_header_eq_error_iff.mpr ⟨earlier, first, front, argument, hfirst, hargument, hfails⟩]
      at hsource
    contradiction
  · intro hclean
    cases hparse : Source.parse .header provenance text api with
    | ok source => exact ⟨source, rfl⟩
    | error failure =>
      obtain ⟨earlier, first, -, -, hfirst, -⟩ := parse_header_eq_error_iff.mp hparse
      obtain ⟨place, hplace, hoffends⟩ := exists_isFirst_iff.mp ⟨earlier, first, hfirst⟩
      exact absurd hoffends (hclean place hplace)

/-- Lines that do not count make no difference to a header that is read. -/
theorem parse_header_of_linesThatCount {other : String}
    (h : linesThatCount (lines other.toList) = linesThatCount (lines text.toList))
    (hsource : Source.parse .header provenance text api = .ok source) :
    Source.parse .header provenance other api = .ok source := by
  obtain ⟨hprovenance, hdeclares⟩ := parse_header_eq_ok_iff.mp hsource
  have hcontent : (places (lines other.toList)).map Place.content =
      (places (lines text.toList)).map Place.content := by
    have hcounted := map_content_linesThatCount []
    show (placesBehind [] (lines other.toList)).map Place.content =
      (placesBehind [] (lines text.toList)).map Place.content
    rw [← hcounted (lines other.toList), h, hcounted]
  rw [forall₂_declares_iff, ← hcontent, ← forall₂_declares_iff] at hdeclares
  exact parse_header_eq_ok_iff.mpr ⟨hprovenance, hdeclares⟩

/-- What becomes of a header, whatever its text.

* It is read as a source if and only if no argument of a prototype offends.  The source then
  declares the prototypes in the order of their lines, each under the feature of the nearest
  section comment before it.
* Otherwise the first argument that offends, in the first prototype that has one, says how
  reading fails: with a report of the line if the argument is blank, and by breaking off if it is
  unsplittable.  Nothing else makes it fail or break off.
* The lines that are neither section comments nor prototypes have no effect on what is declared. -/
theorem outcome_of_header (provenance text api : String) :
    let found := places (lines text.toList)
    ((∃ source, Source.parse .header provenance text api = .ok source) ↔
      ∀ place ∈ found, ¬ place.Offends) ∧
    (∀ source, Source.parse .header provenance text api = .ok source ↔
      source.provenance = provenance ∧
        List.Forall₂ (fun place d => place.prototype.Declares place.feature d) found
          source.pending) ∧
    (∀ failure, Source.parse .header provenance text api = .error failure ↔
      ∃ earlier place front argument, IsFirst Place.Offends found earlier place ∧
        IsFirst Header.Offends place.arguments front argument ∧
        place.Fails front argument failure) ∧
    ∀ other : String, linesThatCount (lines other.toList) = linesThatCount (lines text.toList) →
      ∀ source, Source.parse .header provenance text api = .ok source →
        Source.parse .header provenance other api = .ok source := by
  intro found
  refine ⟨exists_parse_header_eq_ok_iff, ?_, ?_, ?_⟩
  · intro source
    exact parse_header_eq_ok_iff
  · intro failure
    exact parse_header_eq_error_iff
  · intro other hother source
    exact parse_header_of_linesThatCount hother

/-- The blank before the name takes two bytes. -/
example : Source.parse .header "gl.h" "GLAPI void APIENTRY glEnable(GLenum\u00a0cap);" "gl" =
    .error .brokenOff := by
  decide +kernel

end Source

end CallBridge

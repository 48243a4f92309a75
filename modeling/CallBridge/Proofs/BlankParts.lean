import CallBridge.Proofs.Header.Outcome
import CallBridge.Proofs.Header.Reading
import CallBridge.Proofs.Registry.FirstMention

/-!
# Declarations without a name or a return type

A declaration has a name and a return type unless the text that gives them is blank.  A header gives
every function a name, but its return type can be a blank: the one between `GLAPI` and `APIENTRY` where
nothing else stands between them.  A registry gives whatever its elements hold, and that may be nothing.

* `trimmed_eq_empty_iff`, `normalizeType_eq_empty_iff`: only blank texts come to nothing;
* `Header.Place.name_ne_empty`, `Header.Place.returnType_eq_empty_iff`: one prototype;
* `Registry.GivesSignature.exists_texts`: one command;
* `Source.blank_parts_of_source` puts it together;
* `Source.typeless_and_nameless`: a header and a registry with such declarations.
-/

namespace CallBridge

open Text

/-- A text of nothing but blanks. -/
def IsBlankText (s : String) : Prop :=
  ∀ c ∈ s.toList, isBlank c = true

theorem trimmed_eq_empty_iff {s : String} : trimmed s = "" ↔ IsBlankText s := by
  rw [trimmed, String.ofList_eq_empty_iff, trim_eq_nil_iff, IsBlankText]

theorem normalizeType_eq_empty_iff {s : String} : normalizeType s = "" ↔ IsBlankText s := by
  rw [normalizeType, String.ofList_eq_empty_iff, normalizeTypeChars_eq_nil_iff, IsBlankText]

/-! ## Prototypes -/

namespace Header

variable {place : Place} {ls : List (List Char)} {d : Declaration}

/-- In the reading that is taken of the line, the return type is blank: nothing but blanks stands
between `GLAPI` and `APIENTRY`. -/
def Place.IsTypeless (place : Place) : Prop :=
  ∃ r : Reading, r.text = trim place.line ∧ r.IsPreferred ∧ ∀ c ∈ r.returnType, isBlank c = true

theorem exists_reading_of_mem_places (h : place ∈ places ls) :
    ∃ r : Reading, r.text = trim place.line ∧ r.IsPreferred ∧ r.prototype = place.prototype := by
  obtain ⟨-, -, -, -, hprototype⟩ := exists_of_mem_placesBehind h
  exact find?_eq_some_iff.mp (find?_of_prototype? hprototype)

theorem Place.name_ne_empty (h : place ∈ places ls)
    (hd : place.prototype.Declares place.feature d) : d.name ≠ "" := by
  obtain ⟨r, -, -, hprototype⟩ := exists_reading_of_mem_places h
  obtain ⟨c, cs, hname⟩ := List.exists_cons_of_ne_nil r.name_ne_nil
  have hword : isBlank c = false :=
    not_isBlank_of_isWordChar (r.name_word c (hname ▸ List.mem_cons_self))
  rw [Declaration.name, hd.name_eq, ← hprototype, Ne, trimmed_eq_empty_iff, IsBlankText,
    String.toList_ofList]
  intro hblank
  have hc := hblank c (show c ∈ r.name from hname ▸ List.mem_cons_self)
  rw [hword] at hc
  contradiction

theorem Place.returnType_eq_empty_iff (h : place ∈ places ls)
    (hd : place.prototype.Declares place.feature d) :
    d.signature.returnType = "" ↔ place.IsTypeless := by
  obtain ⟨r, htext, hpreferred, hprototype⟩ := exists_reading_of_mem_places h
  rw [hd.returnType_eq, normalizeType_eq_empty_iff, IsBlankText, String.toList_ofList, ← hprototype]
  constructor
  · intro hblank
    exact ⟨r, htext, hpreferred, hblank⟩
  · rintro ⟨s, hs, hs_preferred, hblank⟩
    rw [hpreferred.unique hs_preferred (htext.trans hs.symm)]
    exact hblank

end Header

/-! ## Commands -/

namespace Registry

open Markup

/-- A command gives a signature whose name and return type are made of these texts. -/
def GivesTexts (command : Element) (s : Signature) (type name : String) : Prop :=
  GivesSignature command s ∧
    ∃ prototype, command.child? "proto" = some prototype ∧ GivesName prototype type name

variable {command root : Element} {s : Signature} {api text : String} {ds : List Declaration}

theorem GivesSignature.exists_texts (h : GivesSignature command s) :
    ∃ type name, GivesTexts command s type name ∧ (s.name = "" ↔ IsBlankText name) ∧
      (s.returnType = "" ↔ IsBlankText type) := by
  obtain ⟨prototype, type, name, ps, hprototype, hname, hparams, rfl⟩ := h
  have hgives : GivesSignature command (Signature.normal name type (ParamList.ofList ps)) :=
    ⟨prototype, type, name, ps, hprototype, hname, hparams, rfl⟩
  exact ⟨type, name, ⟨hgives, prototype, hprototype, hname⟩, trimmed_eq_empty_iff,
    normalizeType_eq_empty_iff⟩

/-- A registry that is read has a root element, and declares what the elements say. -/
theorem exists_declares_of_declarations (h : declarations text api = .ok ds) :
    ∃ root, parse text = .ok root ∧ Declares root api ds := by
  unfold declarations at h
  cases hparse : parse text with
  | error report =>
    rw [hparse] at h
    contradiction
  | ok root =>
    have hread : ofRoot root api = .ok ds := by
      rw [hparse] at h
      cases hroot : ofRoot root api with
      | error fault => simp [hroot] at h
      | ok found => simpa [hroot] using h
    have hname : root.name = "registry" := by
      by_contra hne
      unfold ofRoot at hread
      rw [if_pos hne] at hread
      contradiction
    obtain ⟨table, htable, hnamed, hds⟩ := (ofRoot_eq_ok_iff hname).mp hread
    exact ⟨root, rfl, declares_of_forall₂ htable hnamed hds⟩

theorem Declares.exists_nameless_iff (h : Declares root api ds) :
    (∃ d ∈ ds, d.name = "") ↔ ∃ c ∈ citations root api, c.command = "" := by
  have hnames : "" ∈ ds.map Declaration.name ↔ "" ∈ (citations root api).map Citation.command := by
    rw [h.names, List.mem_eraseDups]
  simpa only [List.mem_map] using hnames

end Registry

/-! ## Sources -/

namespace Source

open Header (places)
open Registry (citations definitions)

theorem parse_registry_eq_ok_iff {provenance text api : String} {source : Source} :
    Source.parse .registry provenance text api = .ok source ↔
      source.provenance = provenance ∧ Registry.declarations text api = .ok source.pending := by
  unfold Source.parse Source.ofRegistry
  cases Registry.declarations text api with
  | error report =>
    refine iff_of_false nofun ?_
    rintro ⟨-, ⟨⟩⟩
  | ok ds =>
    constructor
    · intro h
      obtain rfl := Except.ok.inj h
      exact ⟨rfl, rfl⟩
    · rintro ⟨rfl, h⟩
      obtain rfl := Except.ok.inj h
      rfl

/-- Which declarations of a source lack a name or a return type.

* A header that is read declares no function without a name.  It declares one without a return type if
  and only if nothing but blanks stands between `GLAPI` and `APIENTRY` of its prototype.
* A registry that is read declares a function without a name if and only if the name of a command that
  is mentioned for the API is empty.  Each of its declarations is given by a definition, and lacks a name
  if the text of the name is blank there, and a return type if the text before the name is. -/
theorem blank_parts_of_source (provenance text api : String) (source : Source) :
    (Source.parse .header provenance text api = .ok source →
      (∀ d ∈ source.pending, d.name ≠ "") ∧
      List.Forall₂ (fun place d => d.signature.returnType = "" ↔ place.IsTypeless)
        (places (lines text.toList)) source.pending) ∧
    (Source.parse .registry provenance text api = .ok source →
      ∃ root, Markup.parse text = .ok root ∧
        ((∃ d ∈ source.pending, d.name = "") ↔ ∃ c ∈ citations root api, c.command = "") ∧
        ∀ d ∈ source.pending, ∃ command ∈ definitions root, ∃ type name,
          Registry.GivesTexts command d.signature type name ∧ (d.name = "" ↔ IsBlankText name) ∧
          (d.signature.returnType = "" ↔ IsBlankText type)) := by
  constructor
  · intro hparse
    have hdeclares := (parse_header_eq_ok_iff.mp hparse).2
    constructor
    · intro d hd
      obtain ⟨before, after, hsplit⟩ := List.append_of_mem hd
      obtain ⟨first, place, rest, hplaces, hplace, -⟩ :=
        Registry.exists_of_forall₂_append_cons (hsplit ▸ hdeclares)
      have hmem : place ∈ places (lines text.toList) :=
        hplaces ▸ List.mem_append_right first List.mem_cons_self
      exact Header.Place.name_ne_empty hmem hplace
    · rw [List.forall₂_iff_zip] at hdeclares ⊢
      refine ⟨hdeclares.1, fun hmem => ?_⟩
      exact Header.Place.returnType_eq_empty_iff (List.of_mem_zip hmem).1 (hdeclares.2 hmem)
  · intro hparse
    obtain ⟨root, hroot, hdeclares⟩ :=
      Registry.exists_declares_of_declarations (parse_registry_eq_ok_iff.mp hparse).2
    refine ⟨root, hroot, hdeclares.exists_nameless_iff, fun d hd => ?_⟩
    obtain ⟨before, command, after, hsplit, hgives, -, -⟩ := hdeclares.signature d hd
    obtain ⟨type, name, htexts⟩ := hgives.exists_texts
    exact ⟨command, hsplit ▸ List.mem_append_right before List.mem_cons_self, type, name, htexts⟩

/-- A registry with a command whose prototype is an empty name. -/
def namelessRegistry : String :=
  "<registry><commands><command><proto><name/></proto></command></commands>
    <feature api='gl' name='A'><require><command name=''/></require></feature></registry>"

set_option maxRecDepth 8192 in
/-- A header that declares a function without a return type, and a registry that declares one without a
name and without a return type. -/
theorem typeless_and_nameless :
    Source.parse .header "gl.h" "GLAPI   APIENTRY glFoo(void);\n" "gl" =
      .ok ⟨"gl.h", [⟨⟨"glFoo", "", .void⟩, "GL_VERSION_1_0"⟩]⟩ ∧
    Source.parse .registry "gl.xml" namelessRegistry "gl" =
      .ok ⟨"gl.xml", [⟨⟨"", "", .void⟩, "A"⟩]⟩ := by
  have hchars : namelessRegistry.toList = _ := String.toList_ofList
  have hdeclarations : Registry.declarations namelessRegistry "gl" = .ok [⟨⟨"", "", .void⟩, "A"⟩] := by
    rw [Registry.declarations, Markup.parse, hchars]
    decide +kernel
  exact ⟨by decide +kernel, parse_registry_eq_ok_iff.mpr ⟨rfl, hdeclarations⟩⟩

end Source

end CallBridge

import CallBridge.Generated.Preresolution
import CallBridge.Proofs.BlankParts
import CallBridge.Proofs.CommandLine.Course

/-!
# What the check of a configuration is good for

Generated code has eight texts of the configuration in it, and names that are made of three of them.
The check looks at five of the eight: `requiredFields`.  It never looks at the condition of the trace,
at the counter of direct calls and at the failure sentinel: `uncheckedFields`.

* `Config.check?_eq_none_iff` says what passes the check;
* `Config.check?_of_isLetThrough`: texts, files and options yield no configuration that does not
  pass it;
* `forall_isBlank_replaceFrom_iff`: filling in the API name makes no blank condition of the trace out
  of one that is not blank;
* `Config.texts_and_names_of_isLetThrough`: the texts that are written are not blank, the unchecked
  ones apart, and the names are identifiers; `Config.blank_unchecked_texts` is a configuration with
  blank texts that is let through.
-/

namespace CallBridge

open Text Generated
open Files (FileFault)

variable {c : Char} {cs ds : List Char}

/-! ## Identifiers -/

theorem all_isIdentChar_of_isIdentifier (h : isIdentifier cs = true) :
    cs.all isIdentChar = true := by
  cases cs with
  | nil => rfl
  | cons c cs =>
    obtain ⟨hc, hcs⟩ := Bool.and_eq_true_iff.mp h
    have hident : isIdentChar c = true := by
      rcases Bool.or_eq_true_iff.mp hc with halpha | hunderscore
      · simp [isIdentChar, Char.isAlphanum, halpha]
      · simp [isIdentChar, hunderscore]
    rw [List.all_cons, hident, hcs]
    rfl

/-- An identifier stays one with further identifier characters behind it. -/
theorem isIdentifier_append (h : isIdentifier cs = true) (hds : ds.all isIdentChar = true) :
    isIdentifier (cs ++ ds) = true := by
  cases cs with
  | nil => contradiction
  | cons c cs =>
    obtain ⟨hc, hcs⟩ := Bool.and_eq_true_iff.mp h
    rw [List.cons_append, isIdentifier, hc, List.all_append, hcs, hds]
    rfl

/-! ## Filling in the API name -/

/-- Replacing one text that is not blank by another leaves a text blank, or not blank. -/
theorem forall_isBlank_replaceFrom_iff {target replacement : List Char}
    (htarget : ∃ c ∈ target, isBlank c = false) (hreplacement : ∃ c ∈ replacement, isBlank c = false)
    (skip : Nat) (cs : List Char) :
    (∀ c ∈ replaceFrom target replacement skip cs, isBlank c = true) ↔
      ∀ c ∈ cs.drop skip, isBlank c = true := by
  induction cs generalizing skip with
  | nil => simp [replaceFrom]
  | cons c cs ih =>
    cases skip with
    | succ skip => exact ih skip
    | zero =>
      rw [replaceFrom, List.drop_zero]
      split
      · rename_i hstarts
        obtain ⟨rest, hrest⟩ := startsWith_iff.mp hstarts
        obtain ⟨b, hb, hblank⟩ := htarget
        obtain ⟨r, hr, hnone⟩ := hreplacement
        refine iff_of_false (fun h => ?_) fun h => ?_
        · rw [h r (List.mem_append_left _ hr)] at hnone
          contradiction
        · rw [h b (hrest ▸ List.mem_append_left _ hb)] at hblank
          contradiction
      · rw [List.forall_mem_cons, List.forall_mem_cons, ih 0, List.drop_zero]

namespace Config

variable {c d : Config} {field : TextField}

/-! ## What the check promises -/

/-- The fields whose texts stand in generated code unchecked. -/
def uncheckedFields : List TextField :=
  [.traceCondition, .directCallCounter, .failureSentinel]

/-- The texts of a configuration that stand in generated code. -/
def writtenTexts (c : Config) : List String :=
  [c.traceTest, c.traceFunction, c.directCallCounter, c.failureSentinel, c.setupFunction, c.tableType,
    c.apiPrefix, c.wrapperSuffix]

/-- The names in generated code that are made of texts of a configuration and the name of a
function. -/
def derivedNames (c : Config) (s : Signature) : List String :=
  [c.wrapperName s.name, c.setupFunction ++ "Table", c.setupFunction ++ "Init",
    resolveRoutine c.apiPrefix, s.procType]

theorem check?_eq_none_iff :
    c.check? = none ↔ (∀ field ∈ requiredFields, ¬ IsBlankText (c.text field)) ∧
      ∀ field ∈ nameFields, isIdentifier (c.text field).toList = true := by
  have hblank : c.blankField? = none ↔ ∀ field ∈ requiredFields, ¬ IsBlankText (c.text field) := by
    simp [blankField?, IsBlankText, ← trim_eq_nil_iff]
  have hunnamed : c.unnamedField? = none ↔
      ∀ field ∈ nameFields, isIdentifier (c.text field).toList = true := by
    simp [unnamedField?]
  rw [← hblank, ← hunnamed, check?]
  cases c.blankField? <;> simp

/-- The ways in which a configuration is let through: it passes the check, or it comes from a text,
from a file or from options. -/
inductive IsLetThrough (c : Config) : Prop where
  | checked (h : c.checked = .ok c)
  | parse {text : String} (h : Config.parse text = .ok c)
  | load {read : String → Except FileFault String} {path : String} (h : Config.load read path = .ok c)
  | configuration {read : String → Except FileFault String} {g : CommandLine.Given}
    (h : CommandLine.configuration read g = .ok c)

theorem checked_eq_ok_iff : c.checked = .ok d ↔ c.check? = none ∧ c = d := by
  rw [checked]
  cases c.check? <;> simp

theorem check?_of_checked (h : c.checked = .ok d) : d.check? = none := by
  obtain ⟨hcheck, rfl⟩ := checked_eq_ok_iff.mp h
  exact hcheck

theorem check?_of_parse {text : String} (h : Config.parse text = .ok c) : c.check? = none := by
  rw [Config.parse] at h
  split at h
  · exact check?_of_checked h
  · contradiction

theorem check?_of_load {read : String → Except FileFault String} {path : String}
    (h : Config.load read path = .ok c) : c.check? = none := by
  rw [Config.load] at h
  split at h
  · exact check?_of_parse h
  · contradiction

/-- Options yield no configuration that does not pass the check: neither the default one, nor that of
a file, nor either of them with another API name. -/
theorem check?_of_configuration {read : String → Except FileFault String} {g : CommandLine.Given}
    (h : CommandLine.configuration read g = .ok c) : c.check? = none := by
  rw [CommandLine.configuration_eq, bind_eq_ok_iff] at h
  obtain ⟨base, hbase, h⟩ := h
  split at h
  · exact check?_of_checked (CommandLine.ofConfig_eq_ok_iff.mp h)
  · obtain rfl := Except.ok.inj h
    have hbase := CommandLine.ofConfig_eq_ok_iff.mp hbase
    rw [CommandLine.baseConfig] at hbase
    split at hbase
    · exact check?_of_load hbase
    · obtain rfl := Except.ok.inj hbase
      exact check?_default

theorem check?_of_isLetThrough (h : c.IsLetThrough) : c.check? = none := by
  cases h with
  | checked h => exact check?_of_checked h
  | parse h => exact check?_of_parse h
  | load h => exact check?_of_load h
  | configuration h => exact check?_of_configuration h

/-- The check does not look at the unchecked fields. -/
theorem check?_setText_eq_none_iff (hfield : field ∈ uncheckedFields) (value : String) :
    (c.setText value field).check? = none ↔ c.check? = none := by
  have hsame (other : TextField) (hother : other ∈ requiredFields) :
      (c.setText value field).text other = c.text other := by
    have hne : other ≠ field := by
      rintro rfl
      revert hother hfield
      cases other <;> decide
    rw [text_setText, if_neg hne]
  have hnames : ∀ other ∈ nameFields, other ∈ requiredFields := by decide
  rw [check?_eq_none_iff, check?_eq_none_iff]
  refine and_congr (forall₂_congr fun other hother => ?_) (forall₂_congr fun other hother => ?_)
  · rw [hsame other hother]
  · rw [hsame other (hnames other hother)]

/-- The condition of the trace is blank with the API name filled in only if it is blank without. -/
theorem isBlankText_traceTest_iff (hapi : isIdentifier c.apiPrefix.toList = true) :
    IsBlankText c.traceTest ↔ IsBlankText c.traceCondition := by
  have htarget : ∃ b ∈ "\x7bPREFIX\x7d".toList, isBlank b = false := ⟨'P', by decide, by decide⟩
  have hreplacement : ∃ b ∈ (asciiUpper c.apiPrefix).toList, isBlank b = false := by
    rw [asciiUpper, String.toList_ofList]
    obtain ⟨b, bs, hchars⟩ := List.exists_cons_of_ne_nil
      (show c.apiPrefix.toList ≠ [] from fun hnil => by rw [hnil] at hapi; contradiction)
    have hb : isIdentChar b = true := List.all_eq_true.mp
      (all_isIdentChar_of_isIdentifier hapi) b (hchars ▸ List.mem_cons_self)
    exact ⟨b.toUpper, List.mem_map_of_mem (hchars ▸ List.mem_cons_self),
      not_isBlank_of_isIdentChar (isIdentChar_toUpper hb)⟩
  rw [IsBlankText, traceTest, String.toList_ofList,
    forall_isBlank_replaceFrom_iff htarget hreplacement, List.drop_zero, IsBlankText]

theorem isIdentifier_derivedNames (hcheck : c.check? = none) {s : Signature}
    (hname : isIdentifier s.name.toList = true) :
    ∀ name ∈ c.derivedNames s, isIdentifier name.toList = true := by
  obtain ⟨-, hnames⟩ := check?_eq_none_iff.mp hcheck
  have hapi : isIdentifier c.apiPrefix.toList = true := hnames .apiPrefix (by decide)
  have hsuffix : isIdentifier c.wrapperSuffix.toList = true := hnames .wrapperSuffix (by decide)
  have hsetup : isIdentifier c.setupFunction.toList = true := hnames .setupFunction (by decide)
  have hproc : isIdentifier s.procType.toList = true := by
    have hupper : (asciiUpper s.name).toList.all isIdentChar = true := by
      rw [asciiUpper, String.toList_ofList, List.all_map, List.all_eq_true]
      intro b hb
      exact isIdentChar_toUpper
        (List.all_eq_true.mp (all_isIdentChar_of_isIdentifier hname) b hb)
    rw [Signature.procType, String.toList_append, String.toList_append]
    exact isIdentifier_append (isIdentifier_append (by decide) hupper) (by decide)
  simp only [derivedNames, resolveRoutine, wrapperName, List.forall_mem_cons, String.toList_append]
  exact ⟨isIdentifier_append hname (all_isIdentChar_of_isIdentifier hsuffix),
    isIdentifier_append hsetup (by decide), isIdentifier_append hsetup (by decide),
    isIdentifier_append hapi (by decide), hproc, List.forall_mem_nil _⟩

/-- What a configuration that is let through is good for, wherever it comes from.

* The texts of the required fields are not blank, so that none of the texts that stand in generated
  code is, if none of the unchecked ones is.
* The unchecked texts can be anything: any others would have been let through as well.
* The names in generated code are identifiers, if the name of the function is one. -/
theorem texts_and_names_of_isLetThrough (h : c.IsLetThrough) :
    (∀ field ∈ requiredFields, ¬ IsBlankText (c.text field)) ∧
    ((∀ s ∈ c.writtenTexts, ¬ IsBlankText s) ↔
      ∀ field ∈ uncheckedFields, ¬ IsBlankText (c.text field)) ∧
    (∀ field ∈ uncheckedFields, ∀ value, (c.setText value field).IsLetThrough) ∧
    ∀ s : Signature, isIdentifier s.name.toList = true →
      ∀ name ∈ c.derivedNames s, isIdentifier name.toList = true := by
  have hcheck := check?_of_isLetThrough h
  obtain ⟨hrequired, hnames⟩ := check?_eq_none_iff.mp hcheck
  refine ⟨hrequired, ?_, ?_, fun s => isIdentifier_derivedNames hcheck⟩
  · have htrace := isBlankText_traceTest_iff (hnames .apiPrefix (by decide))
    simp only [requiredFields, List.forall_mem_cons, text] at hrequired
    obtain ⟨hapi, hsuffix, hfunction, hsetup, htable, -⟩ := hrequired
    simp [writtenTexts, uncheckedFields, text, htrace, hapi, hsuffix, hfunction, hsetup, htable]
  · intro field hfield value
    have hset := (check?_setText_eq_none_iff hfield value).mpr hcheck
    exact .checked (checked_eq_ok_iff.mpr ⟨hset, rfl⟩)

/-- The promises for a configuration with an API name of its own, and for one of its functions. -/
theorem texts_and_names_gles :
    let c : Config := { apiPrefix := "gles" }
    let g : CommandLine.Given := { values := [(.apiPrefix, "gles")] }
    CommandLine.configuration (fun _ => .error .missing) g = .ok c ∧
      (∀ s ∈ c.writtenTexts, ¬ IsBlankText s) ∧
      ∀ name ∈ c.derivedNames ⟨"glesFoo", "void", .void⟩, isIdentifier name.toList = true := by
  intro c g
  have hconfiguration : CommandLine.configuration (fun _ => .error .missing) g = .ok c := by
    decide +kernel
  obtain ⟨-, htexts, -, hnames⟩ := texts_and_names_of_isLetThrough (.configuration hconfiguration)
  refine ⟨hconfiguration, htexts.mpr ?_, hnames _ (by decide)⟩
  simp only [IsBlankText, ← trim_eq_nil_iff]
  decide

/-- A configuration file with three blank texts is let through.  A wrapper that has to return something
and cannot resolve its function returns nothing then. -/
theorem blank_unchecked_texts :
    let c : Config := { traceCondition := " ", directCallCounter := "", failureSentinel := "" }
    let s : Signature := ⟨"glGetError", "GLenum", .void⟩
    Config.parse "\x7b\"trace_condition\": \" \", \"direct_call_counter\": \"\", \"failure_sentinel\": \"\"\x7d" =
      .ok c ∧
      resolveLine c s = "  RESOLVE_RET(PFNGLGETERRORPROC, \"glGetError\", );" ∧
      traceLine c s = "  if ( ) ErrorF(\"glGetError\\n\");" := by
  decide +kernel

end Config

end CallBridge

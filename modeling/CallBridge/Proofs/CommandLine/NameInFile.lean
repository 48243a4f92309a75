import CallBridge.Proofs.CommandLine.ConfigArguments
import CallBridge.Proofs.CommandLine.Verbosity
import CallBridge.Proofs.Config.Checks
import CallBridge.Proofs.Config.Decoding
import CallBridge.Proofs.Files.Layout

/-!
# The API name in a configuration file

The API name can be given by an option or stand in a configuration file.  An option is read after the
file and replaces the name there.  The name is needed again and again: when it is checked, for the
functions of a registry, for the functions that slots want, for the condition of the trace and for
the routine that resolves functions in advance.

* `Config.checked_apiPrefix`: of a configuration without fault, the check sees nothing but a new name;
* `Given.NamesInFile`: options that name a configuration file instead of an API name;
* `FindsAlike`: two trees in which the same is found, a configuration file apart.  `findsAlike_of_write`:
  a tree before and after its configuration file is edited;
* `produce_eq`: what two runs with the same configuration have generated and logged;
* `runs_alike_of_name_in_file`: a run with the name among its options, and one with the name in its
  configuration file.
-/

namespace CallBridge

open Text

namespace Config

/-! ## Another API name -/

/-- What is wrong with a name that generated names are made of. -/
def nameFault? (name : String) : Option FieldFault :=
  if (trim name.toList).isEmpty then some .blank
  else if isIdentifier name.toList then none
  else some (.notIdentifier name)

variable {c : Config}

/-- The first field with a fault is that of the API name, if the others have none. -/
theorem find?_apiPrefix (faulty : String → Bool) {rest : List TextField}
    (hrest : ∀ field ∈ rest, field ≠ .apiPrefix ∧ faulty (c.text field) = false) (name : String) :
    (TextField.apiPrefix :: rest).find? (fun field => faulty ((c.setText name .apiPrefix).text field)) =
      if faulty name then some .apiPrefix else none := by
  have hnone : rest.find? (fun field => faulty ((c.setText name .apiPrefix).text field)) = none := by
    refine List.find?_eq_none.mpr fun field hfield => ?_
    obtain ⟨hne, hfine⟩ := hrest field hfield
    simp [text_setText, hne, hfine]
  rw [List.find?_cons, hnone, text_setText, if_pos rfl]
  cases faulty name <;> rfl

/-- Of a configuration without fault, the check sees nothing but a new API name. -/
theorem check?_apiPrefix (hcheck : c.check? = none) (name : String) :
    { c with apiPrefix := name }.check? = (nameFault? name).map (.apiPrefix, ·) := by
  obtain ⟨hrequired, hnames⟩ := check?_eq_none_iff.mp hcheck
  have hblank : { c with apiPrefix := name }.blankField? =
      if (trim name.toList).isEmpty then some .apiPrefix else none := by
    refine find?_apiPrefix (fun s => (trim s.toList).isEmpty) (fun field hfield => ⟨?_, ?_⟩) name
    · rintro rfl
      revert hfield
      decide
    · have hfine := hrequired field (List.mem_cons_of_mem _ hfield)
      rwa [IsBlankText, ← trim_eq_nil_iff, ← List.isEmpty_iff, Bool.not_eq_true] at hfine
  have hunnamed : { c with apiPrefix := name }.unnamedField? =
      if !isIdentifier name.toList then some .apiPrefix else none := by
    refine find?_apiPrefix (fun s => !isIdentifier s.toList) (fun field hfield => ⟨?_, ?_⟩) name
    · rintro rfl
      revert hfield
      decide
    · rw [hnames field (List.mem_cons_of_mem _ hfield)]
      rfl
  rw [check?, hblank, hunnamed, nameFault?]
  cases (trim name.toList).isEmpty <;> cases isIdentifier name.toList <;> rfl

theorem checked_apiPrefix (hcheck : c.check? = none) (name : String) :
    { c with apiPrefix := name }.checked =
      match nameFault? name with
      | none => .ok { c with apiPrefix := name }
      | some fault => .error (.invalid .apiPrefix fault) := by
  rw [checked, check?_apiPrefix hcheck]
  cases nameFault? name <;> rfl

end Config

namespace CommandLine

open Files (FileFault Tree)

variable {g g' : Given} {before before' : Tree} {config : Config} {name path text : String}
  {read read' : String → Except FileFault String}

/-! ## Options and trees that are alike -/

/-- Options with a configuration file and without an API name.  All others are those of given
options. -/
structure Given.NamesInFile (g : Given) (path : String) (g' : Given) : Prop where
  config : g'.value? .config = some path
  apiPrefix : g'.value? .apiPrefix = none
  values : ∀ option, option ≠ .config → option ≠ .apiPrefix → g'.value? option = g.value? option
  flags : ∀ flag, g'.has flag = g.has flag
  verbose : g'.verbose = g.verbose

theorem namesInFile_configuredBy (g : Given) (path : String) :
    g.NamesInFile path (g.configuredBy path) where
  config := value?_configuredBy path g .config
  apiPrefix := value?_configuredBy path g .apiPrefix
  values option hconfig hapi := by
    have hother : option.configures = false := by
      cases option with
      | apiPrefix => exact absurd rfl hapi
      | config => exact absurd rfl hconfig
      | registry | header | outfile | dispatchHeader => rfl
    rw [value?_configuredBy, if_neg hconfig, hother]
    rfl
  flags flag := rfl
  verbose := rfl

/-- In two trees the same is found, a configuration file apart: the source and the dispatch header are
read alike, and a text is written alike. -/
structure FindsAlike (g : Given) (before before' : Tree) : Prop where
  source : before'.read g.source.2 = before.read g.source.2
  dispatchHeader : ∀ path, g.value? .dispatchHeader = some path →
    before'.read path = before.read path
  outfile : ∀ path, g.value? .outfile = some path → ∀ text,
    Tree.WritesAlike before before' text (before.write path text) (before'.write path text)

/-- The same is found before and after a file is written to which neither the source nor the dispatch
header leads. -/
theorem findsAlike_of_write {old : String} (hread : before.read path = .ok old)
    (hwrite : before.write path text = .ok before')
    (helsewhere : ∀ input ∈ g.source.2 :: (g.value? .dispatchHeader).toList,
      (before.find input).map Prod.fst ≠ (before.find path).map Prod.fst) :
    FindsAlike g before before' := by
  obtain ⟨place, bytes, hfind⟩ : ∃ place bytes, before.find path = .ok (place, .file bytes) := by
    rw [Tree.read] at hread
    split at hread
    · cases hread
    · cases hread
    · next place bytes hfind => exact ⟨place, bytes, hfind⟩
  obtain ⟨hlayout, hframe⟩ := Tree.sameLayout_of_write hfind hwrite
  have hsame (input : String) (hinput : input ∈ g.source.2 :: (g.value? .dispatchHeader).toList) :
      before'.read input = before.read input := by
    refine hlayout.read fun other bytes hother => hframe other ?_
    rintro rfl
    refine helsewhere input hinput ?_
    rw [hother, hfind]
    rfl
  exact
    { source := hsame _ List.mem_cons_self
      dispatchHeader := fun input hinput => hsame input (by simp [hinput])
      outfile := fun input _ text => hlayout.write input text }

/-! ## What is generated -/

theorem source_of_namesInFile (h : g.NamesInFile path g') : g'.source = g.source := by
  rw [Given.source, Given.source, h.values .registry (by decide) (by decide),
    h.values .header (by decide) (by decide)]

theorem options_of_namesInFile (h : g.NamesInFile path g') : g'.options = g.options := by
  simp only [Given.options, h.flags]

/-- Runs that have the same configuration and read the same generate and log the same. -/
theorem produce_eq (hgiven : g.NamesInFile path g')
    (hconfig : configuration read' g' = configuration read g)
    (hsource : read' g.source.2 = read g.source.2)
    (hheader : ∀ path, g.value? .dispatchHeader = some path → read' path = read path) :
    produce read' g' = produce read g := by
  have hload (config : Config) : Source.load read' g.source.1 g.source.2 config =
      Source.load read g.source.1 g.source.2 config := by
    rw [Source.load, Source.load, hsource]
  have hrequirement (config : Config) : requirement? read' g' config = requirement? read g config := by
    rw [requirement?, requirement?, hgiven.values .dispatchHeader (by decide) (by decide)]
    split
    · rfl
    · next path hpath =>
      rw [Dispatch.Requirement.load, Dispatch.Requirement.load, hheader path hpath]
  rw [produce, produce, hconfig, source_of_namesInFile hgiven, options_of_namesInFile hgiven]
  simp only [hload, hrequirement]

/-! ## What is shown and left behind -/

/-- Two runs leave their trees as they are, or put the same text at the same place. -/
inductive LeavesAlike (before before' : Tree) : Tree → Tree → Prop where
  | untouched : LeavesAlike before before' before before'
  | put (place : List String) (text : String) :
    LeavesAlike before before' (before.put place text) (before'.put place text)

theorem conclude_of_namesInFile (hgiven : g.NamesInFile path g') (produced : Logged String)
    (written : Except FileFault Unit) :
    conclude g' produced written = conclude g produced written := by
  have hthreshold : g'.threshold = g.threshold := by
    rw [Given.threshold, Given.threshold, hgiven.verbose, hgiven.flags]
  have hfailed (records : List Log.Record) (failure : Failure) :
      failed g' records failure = failed g records failure := by
    simp only [failed, hthreshold]
  simp only [conclude, hfailed, succeeded, hthreshold,
    hgiven.values .outfile (by decide) (by decide)]

theorem runGiven_alike (hgiven : g.NamesInFile path g') (hfinds : FindsAlike g before before')
    (hconfig : configuration before'.read g' = configuration before.read g) :
    (runGiven before g).1 = (runGiven before' g').1 ∧
      LeavesAlike before before' (runGiven before g).2 (runGiven before' g').2 := by
  have hproduce := produce_eq hgiven hconfig hfinds.source hfinds.dispatchHeader
  have hwrite : toWrite g' (produce before.read g) = toWrite g (produce before.read g) := by
    rw [toWrite, toWrite, hgiven.values .outfile (by decide) (by decide)]
  have hconclude := conclude_of_namesInFile hgiven (produce before.read g)
  rw [runGiven, runGiven, hproduce, hwrite]
  cases hresult : toWrite g (produce before.read g) with
  | none => exact ⟨(hconclude _).symm, .untouched⟩
  | some target =>
    obtain ⟨outfile, text⟩ := target
    have houtfile : g.value? .outfile = some outfile := by
      rw [toWrite] at hresult
      split at hresult
      · next hpath =>
        cases hresult
        exact hpath
      · cases hresult
    have hwrites := hfinds.outfile outfile houtfile text
    simp only
    generalize before.write outfile text = one, before'.write outfile text = other at hwrites
    cases hwrites with
    | fault fault => exact ⟨(hconclude _).symm, .untouched⟩
    | put place => exact ⟨(hconclude _).symm, .put place text⟩

/-! ## The name of the options and that of the file -/

theorem check?_of_baseConfig (h : baseConfig read g = .ok config) : config.check? = none := by
  rw [baseConfig] at h
  split at h
  · exact Config.check?_of_load h
  · cases h
    exact Config.check?_default

/-- The configuration of a run whose options give a name. -/
theorem configuration_of_option (hname : g.value? .apiPrefix = some name)
    (hbase : baseConfig read g = .ok config) :
    configuration read g = ofConfig { config with apiPrefix := name }.checked := by
  rw [configuration_eq, hbase, hname]
  rfl

/-- The configuration of a run whose file gives a name. -/
theorem configuration_of_file (hgiven : g.NamesInFile path g') (hread : read' path = .ok text)
    (hdecode : Config.ofJson text = .ok config) :
    configuration read' g' = ofConfig config.checked := by
  rw [configuration_eq, baseConfig, hgiven.config, hgiven.apiPrefix]
  simp only [Config.load, hread, Config.parse, hdecode]
  cases config.checked <;> rfl

/-- A run whose configuration is not let through tells why, and does nothing else. -/
theorem runGiven_of_configuration {failure : ConfigFailure}
    (h : configuration before.read g = .error (.config failure)) :
    runGiven before g =
      ({ exitCode := 1, records := [⟨.error, failure.text⟩] }, before) := by
  have hproduce := produce_of_configuration h
  have hshown : Log.shown g.threshold [⟨.error, failure.text⟩] = [⟨.error, failure.text⟩] := by
    cases hthreshold : g.threshold <;> rfl
  rw [runGiven_of_result (by rw [hproduce]), hproduce]
  show (Shown.mk 1 "" (Log.shown g.threshold [⟨.error, failure.text⟩]), before) = _
  rw [hshown]

/-- A run with an API name among its options, and what a run without it makes of a configuration file
with this name.

* The other options are accepted with any configuration file instead of the name and of the file that
  is named beside it, if one is, and there is a text for such a file: one that is read as the
  configuration of the first run, but with the name in it.
* Such a run shows the same, ends with the same exit code and writes the same text to the same place,
  or nothing as well, provided that it finds the same source and dispatch header.
* If the name is let through, both runs have the configuration with this name, and else both tell of
  the same fault and write nothing. -/
theorem runs_alike_of_name_in_file {first : List String}
    (hfirst : Request.parse first = .ok (.generate g))
    (hname : g.value? .apiPrefix = some name) (hbase : baseConfig before.read g = .ok config) :
    (∀ path, path ≠ "" → ∃ g', g.NamesInFile path g' ∧
      Request.parse (("--config=" ++ path) :: unconfigured first) = .ok (.generate g')) ∧
    (∃ text, Config.ofJson text = .ok { config with apiPrefix := name }) ∧
    ∀ second g' path before' text, Request.parse second = .ok (.generate g') →
      g.NamesInFile path g' → FindsAlike g before before' → before'.read path = .ok text →
      Config.ofJson text = .ok { config with apiPrefix := name } →
      let one := run before first
      let other := run before' second
      one.1 = other.1 ∧ one.1.stderr = other.1.stderr ∧
      LeavesAlike before before' one.2 other.2 ∧
      match Config.nameFault? name with
      | none =>
        configuration before.read g = .ok { config with apiPrefix := name } ∧
        configuration before'.read g' = .ok { config with apiPrefix := name }
      | some fault =>
        one.1 = { exitCode := 1, records := [⟨.error, invalidText "prefix" fault.message⟩] } ∧
        one.2 = before ∧ other.2 = before' := by
  refine ⟨fun path hpath => ?_, Config.exists_ofJson_eq _, ?_⟩
  · exact ⟨_, namesInFile_configuredBy g path, parse_configuredBy hpath hfirst⟩
  · intro second g' path before' text hsecond hgiven hfinds hread hdecode one other
    have hone := configuration_of_option hname hbase
    have hother := configuration_of_file hgiven hread hdecode
    have halike := runGiven_alike hgiven hfinds (hother.trans hone.symm)
    rw [← run_of_generate hfirst, ← run_of_generate hsecond] at halike
    obtain ⟨hshown, hleaves⟩ := halike
    refine ⟨hshown, congrArg Shown.stderr hshown, hleaves, ?_⟩
    rw [Config.checked_apiPrefix (check?_of_baseConfig hbase)] at hone hother
    cases hfault : Config.nameFault? name with
    | none =>
      rw [hfault] at hone hother
      exact ⟨hone, hother⟩
    | some fault =>
      rw [hfault] at hone hother
      have hends := (run_of_generate hfirst).trans (runGiven_of_configuration hone)
      have hends' := (run_of_generate hsecond).trans (runGiven_of_configuration hother)
      exact ⟨congrArg Prod.fst hends, congrArg Prod.snd hends, congrArg Prod.snd hends'⟩

/-- A directory with a header and a configuration file. -/
def suffixTree : Tree :=
  ⟨[(["gl.h"], .file "GLAPI void APIENTRY glesFoo(void);\n".toUTF8),
    (["c.json"], .file "\x7b\"wrapper_suffix\": \"W\"\x7d".toUTF8)]⟩

/-- The configuration file, with an API name in it. -/
def namedText : String :=
  "\x7b\"prefix\": \"gles\", \"wrapper_suffix\": \"W\"\x7d"

/-- Arguments with an API name. -/
def nameArguments : List String :=
  ["--config", "c.json", "--header", "gl.h", "--prefix", "gles", "--preresolve", "-oglW.c"]

/-- The options of these arguments. -/
def nameGiven : Given where
  values := [(.config, "c.json"), (.header, "gl.h"), (.apiPrefix, "gles"), (.outfile, "glW.c")]
  flags := [.preresolve]

/-- The same arguments without the name, in another order. -/
def namelessArguments : List String :=
  ["--header=gl.h", "--preresolve", "-o", "glW.c", "--config=c.json"]

/-- The options of these arguments. -/
def namelessGiven : Given where
  values := [(.header, "gl.h"), (.outfile, "glW.c"), (.config, "c.json")]
  flags := [.preresolve]

/-- With the name in the file instead of the arguments, the same text is written to the same file. -/
theorem runs_of_suffixTree :
    ∃ edited, suffixTree.write "c.json" namedText = .ok edited ∧
      (run suffixTree nameArguments).1 = (run edited namelessArguments).1 ∧
      (run edited namelessArguments).1.exitCode = 0 ∧
      LeavesAlike suffixTree edited (run suffixTree nameArguments).2
        (run edited namelessArguments).2 ∧
      configuration edited.read namelessGiven =
        .ok { apiPrefix := "gles", wrapperSuffix := "W" } := by
  have hfirst : Request.parse nameArguments = .ok (.generate nameGiven) := by
    decide +kernel
  have hsecond : Request.parse namelessArguments = .ok (.generate namelessGiven) := by
    decide +kernel
  have hgiven : nameGiven.NamesInFile "c.json" namelessGiven := by
    refine ⟨rfl, rfl, fun option hconfig hapi => ?_, fun flag => rfl, rfl⟩
    cases option with
    | apiPrefix => exact absurd rfl hapi
    | config => exact absurd rfl hconfig
    | registry | header | outfile | dispatchHeader => rfl
  have hbase : baseConfig suffixTree.read nameGiven = .ok { wrapperSuffix := "W" } := by
    decide +kernel
  have hdecode : Config.ofJson namedText = .ok { apiPrefix := "gles", wrapperSuffix := "W" } := by
    decide +kernel
  have hold : suffixTree.read "c.json" = .ok "\x7b\"wrapper_suffix\": \"W\"\x7d" := by
    decide +kernel
  obtain ⟨edited, hwrite⟩ : ∃ edited, suffixTree.write "c.json" namedText = .ok edited := by
    have hisOk : (suffixTree.write "c.json" namedText).isOk = true := by
      decide +kernel
    cases hwrite : suffixTree.write "c.json" namedText with
    | ok edited => exact ⟨edited, rfl⟩
    | error fault =>
      rw [hwrite] at hisOk
      cases hisOk
  have hfinds : FindsAlike nameGiven suffixTree edited :=
    findsAlike_of_write hold hwrite (by decide +kernel)
  obtain ⟨_, -, hread, -⟩ := Tree.rewrites_of_write hwrite
  obtain ⟨-, -, halike⟩ := runs_alike_of_name_in_file hfirst rfl hbase
  obtain ⟨hshown, -, hleaves, -, hconfig⟩ :=
    halike _ _ _ edited _ hsecond hgiven hfinds hread hdecode
  have hcode : (run suffixTree nameArguments).1.exitCode = 0 := by
    decide +kernel
  exact ⟨edited, hwrite, hshown, hshown ▸ hcode, hleaves, hconfig⟩

end CommandLine

end CallBridge

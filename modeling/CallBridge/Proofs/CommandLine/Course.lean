import CallBridge.CommandLine.Run
import CallBridge.Proofs.Generation.Account
import CallBridge.Proofs.Files.Write
import CallBridge.Proofs.Outcome

/-!
# The course of a run

A run reads a configuration, the API name, a source and a dispatch header, generates a text and
writes it.  Each step but the generation can fail.  `Stops` says at which step a run fails and
why, and `Generates` says what text is made if none fails; neither knows of records, exit codes
or of the order in which things are written.  One of the two always holds (`stops_or_generates`),
and what a run shows and leaves behind follows from it (`runGiven_of_stops`,
`runGiven_of_generates`, `runGiven_of_write`).

`Ends` gathers the ways in which a whole run ends.  From it, a run writes all or nothing:
`writesAllOrNothing_run`.
-/

namespace CallBridge.CommandLine

open Files (FileFault Tree)

variable {tree : Tree} {g : Given}

/-! ## The steps of a run -/

/-- The configuration of the file that is named, or the default one. -/
def baseConfig (read : String → Except FileFault String) (g : Given) :
    Except ConfigFailure Config :=
  match g.value? .config with
  | some path => Config.load read path
  | none => .ok {}

/-- Everything that is needed can be read, and a text is made from it. -/
inductive Generates (tree : Tree) (g : Given) : String → Prop where
  | text {config : Config} {source : Source} {requirement : Option Dispatch.Requirement}
    (hconfig : configuration tree.read g = .ok config)
    (hsource : Source.load tree.read g.source.1 g.source.2 config = .ok source)
    (hrequirement : requirement? tree.read g config = .ok requirement) :
    Generates tree g ((Generator.mk config g.options requirement).run source).1.text

/-- A run fails at one of its steps, after those before it have succeeded. -/
inductive Stops (tree : Tree) (g : Given) : Failure → Prop where
  | config {failure : ConfigFailure} (hbase : baseConfig tree.read g = .error failure) :
    Stops tree g (.config failure)
  | apiPrefix {config : Config} {name : String} {failure : ConfigFailure}
    (hbase : baseConfig tree.read g = .ok config) (hname : g.value? .apiPrefix = some name)
    (hchecked : { config with apiPrefix := name }.checked = .error failure) :
    Stops tree g (.config failure)
  | source {config : Config} {failure : Failure}
    (hconfig : configuration tree.read g = .ok config)
    (hsource : Source.load tree.read g.source.1 g.source.2 config = .error failure) :
    Stops tree g failure
  | dispatchHeader {config : Config} {source : Source} {path : String} {failure : Failure}
    (hconfig : configuration tree.read g = .ok config)
    (hsource : Source.load tree.read g.source.1 g.source.2 config = .ok source)
    (hpath : g.value? .dispatchHeader = some path)
    (hload : Dispatch.Requirement.load tree.read path config = .error failure) :
    Stops tree g failure
  | outfile {text path : String} {fault : FileFault} (htext : Generates tree g text)
    (hpath : g.value? .outfile = some path) (hwrite : tree.write path text = .error fault) :
    Stops tree g (.file fault)

theorem ofConfig_eq_ok_iff {α : Type} {result : Except ConfigFailure α} {a : α} :
    ofConfig result = .ok a ↔ result = .ok a := by
  cases result <;> simp [ofConfig]

theorem ofConfig_eq_error_iff {α : Type} {result : Except ConfigFailure α} {failure : Failure} :
    ofConfig result = .error failure ↔
      ∃ problem, result = .error problem ∧ failure = .config problem := by
  cases result <;> simp [ofConfig, eq_comm]

theorem configuration_eq (read : String → Except FileFault String) (g : Given) :
    configuration read g = (ofConfig (baseConfig read g) >>= fun config =>
      match g.value? .apiPrefix with
      | some name => ofConfig { config with apiPrefix := name }.checked
      | none => .ok config) := by
  rw [configuration, baseConfig]
  cases g.value? .config <;> rfl

namespace Logged

variable {α β : Type}

@[simp] theorem result_bind (x : Logged α) (f : α → Logged β) :
    (x >>= f).result = x.result >>= fun a => (f a).result := by
  obtain ⟨records, result⟩ := x
  cases result <;> rfl

@[simp] theorem result_ofResult (result : Except Failure α) : (ofResult result).result = result :=
  rfl

/-- Whether no record tells of a failure. -/
def IsCalm (x : Logged α) : Prop :=
  ∀ record ∈ x.records, record.level ≠ .error

theorem IsCalm.bind {x : Logged α} {f : α → Logged β} (hx : x.IsCalm) (hf : ∀ a, (f a).IsCalm) :
    (x >>= f).IsCalm := by
  obtain ⟨records, result⟩ := x
  cases result with
  | error failure => exact hx
  | ok a => exact List.forall_mem_append.mpr ⟨hx, hf a⟩

theorem isCalm_ofResult (result : Except Failure α) : (ofResult result).IsCalm :=
  List.forall_mem_nil _

end Logged

theorem result_produce (read : String → Except FileFault String) (g : Given) :
    (produce read g).result = (configuration read g >>= fun config =>
      Source.load read g.source.1 g.source.2 config >>= fun source =>
      requirement? read g config >>= fun requirement =>
      .ok ((Generator.mk config g.options requirement).run source).1.text) := by
  simp only [produce, Logged.result_bind, Logged.result_ofResult]
  rfl

theorem level_ne_error_of_mem_log (generator : Generator) (source : Source) :
    ∀ record ∈ (generator.run source).1.log, record.level ≠ .error := by
  have hwarning (d : Diagnostic) : (d.record source.provenance).level ≠ .error := by
    rw [Diagnostic.level_record]
    nofun
  simp only [Generator.log_run, List.forall_mem_append, List.forall_mem_map,
    List.forall_mem_singleton]
  exact ⟨⟨⟨⟨nofun, fun d _ => hwarning d⟩, nofun⟩, fun d _ => hwarning d⟩, nofun⟩

theorem isCalm_produce (read : String → Except FileFault String) (g : Given) :
    (produce read g).IsCalm := by
  refine (Logged.isCalm_ofResult _).bind fun config => ?_
  refine Logged.IsCalm.bind (by simp [Logged.IsCalm, Logged.record]) fun _ => ?_
  refine (Logged.isCalm_ofResult _).bind fun source => ?_
  refine (Logged.isCalm_ofResult _).bind fun requirement => ?_
  exact level_ne_error_of_mem_log _ source

/-! ## Where a run ends -/

variable {failure : Failure} {text path : String}

theorem result_produce_eq_ok_iff :
    (produce tree.read g).result = .ok text ↔ Generates tree g text := by
  simp only [result_produce, bind_eq_ok_iff]
  constructor
  · rintro ⟨config, hconfig, source, hsource, requirement, hrequirement, htext⟩
    cases htext
    exact .text hconfig hsource hrequirement
  · rintro ⟨hconfig, hsource, hrequirement⟩
    exact ⟨_, hconfig, _, hsource, _, hrequirement, rfl⟩

theorem stops_of_configuration (h : configuration tree.read g = .error failure) :
    Stops tree g failure := by
  rw [configuration_eq, bind_eq_error_iff] at h
  rcases h with hbase | ⟨config, hbase, h⟩
  · obtain ⟨problem, hproblem, rfl⟩ := ofConfig_eq_error_iff.mp hbase
    exact .config hproblem
  · split at h
    · next name hname =>
      obtain ⟨problem, hproblem, rfl⟩ := ofConfig_eq_error_iff.mp h
      exact .apiPrefix (ofConfig_eq_ok_iff.mp hbase) hname hproblem
    · cases h

theorem stops_of_requirement? {config : Config} {source : Source}
    (hconfig : configuration tree.read g = .ok config)
    (hsource : Source.load tree.read g.source.1 g.source.2 config = .ok source)
    (h : requirement? tree.read g config = .error failure) : Stops tree g failure := by
  rw [requirement?] at h
  split at h
  · cases h
  · next path hpath =>
    cases hload : Dispatch.Requirement.load tree.read path config with
    | error problem =>
      rw [hload] at h
      cases h
      exact .dispatchHeader hconfig hsource hpath hload
    | ok requirement =>
      rw [hload] at h
      cases h

theorem stops_of_result (h : (produce tree.read g).result = .error failure) :
    Stops tree g failure := by
  simp only [result_produce, bind_eq_error_iff] at h
  rcases h with hconfig | ⟨config, hconfig, hsource | ⟨source, hsource, hrequirement | h⟩⟩
  · exact stops_of_configuration hconfig
  · exact .source hconfig hsource
  · exact stops_of_requirement? hconfig hsource hrequirement
  · obtain ⟨_, _, ⟨⟩⟩ := h

/-- A run fails at one of its steps, or all of them succeed. -/
theorem stops_or_generates (tree : Tree) (g : Given) :
    (∃ failure, Stops tree g failure) ∨
      ∃ text, Generates tree g text ∧
        ∀ path, g.value? .outfile = some path → ∃ after, tree.write path text = .ok after := by
  cases hresult : (produce tree.read g).result with
  | error failure => exact .inl ⟨failure, stops_of_result hresult⟩
  | ok text =>
    have htext := result_produce_eq_ok_iff.mp hresult
    cases hpath : g.value? .outfile with
    | none => exact .inr ⟨text, htext, nofun⟩
    | some path =>
      cases hwrite : tree.write path text with
      | error fault => exact .inl ⟨.file fault, .outfile htext hpath hwrite⟩
      | ok after =>
        refine .inr ⟨text, htext, ?_⟩
        rintro _ ⟨⟩
        exact ⟨after, hwrite⟩

/-- A run that cannot generate anything leaves the tree as it is. -/
theorem runGiven_of_result (h : (produce tree.read g).result = .error failure) :
    runGiven tree g = (failed g (produce tree.read g).records failure, tree) := by
  simp [runGiven, toWrite, conclude, h]

theorem runGiven_of_stops (h : Stops tree g failure) :
    runGiven tree g = (failed g (produce tree.read g).records failure, tree) := by
  cases h with
  | config hbase =>
    apply runGiven_of_result
    rw [result_produce, configuration_eq, hbase]
    rfl
  | apiPrefix hbase hname hchecked =>
    apply runGiven_of_result
    rw [result_produce, configuration_eq, hbase, hname]
    simp only [ofConfig, ok_bind, hchecked, error_bind]
  | source hconfig hsource =>
    apply runGiven_of_result
    rw [result_produce, hconfig, ok_bind, hsource, error_bind]
  | dispatchHeader hconfig hsource hpath hload =>
    apply runGiven_of_result
    rw [result_produce, hconfig, ok_bind, hsource, ok_bind, requirement?, hpath]
    simp only [hload]
    rfl
  | outfile htext hpath hwrite =>
    have hresult := result_produce_eq_ok_iff.mpr htext
    simp [runGiven, toWrite, conclude, hresult, hpath, hwrite]

theorem runGiven_of_generates (htext : Generates tree g text)
    (hpath : g.value? .outfile = none) :
    runGiven tree g = (succeeded g (produce tree.read g).records text, tree) := by
  have hresult := result_produce_eq_ok_iff.mpr htext
  simp [runGiven, toWrite, conclude, hresult, hpath]

theorem runGiven_of_write {after : Tree} (htext : Generates tree g text)
    (hpath : g.value? .outfile = some path) (hwrite : tree.write path text = .ok after) :
    runGiven tree g = (succeeded g (produce tree.read g).records "", after) := by
  have hresult := result_produce_eq_ok_iff.mpr htext
  simp [runGiven, toWrite, conclude, hresult, hpath, hwrite]

/-! ## How a whole run ends -/

/-- The ways in which a run with some arguments ends: what it shows, and the tree that it leaves. -/
inductive Ends (arguments : List String) (before : Tree) : Shown × Tree → Prop where
  | usage {fault : UsageFault} (hparse : Request.parse arguments = .error fault) :
    Ends arguments before ({ exitCode := 2 }, before)
  | information {request : Request} (text : String) (hparse : Request.parse arguments = .ok request)
    (hrequest : ∀ g, request ≠ .generate g) :
    Ends arguments before ({ exitCode := 0, stdout := text }, before)
  | failed {g : Given} {failure : Failure} (hparse : Request.parse arguments = .ok (.generate g))
    (hstops : Stops before g failure) :
    Ends arguments before (failed g (produce before.read g).records failure, before)
  | shown {g : Given} {text : String} (hparse : Request.parse arguments = .ok (.generate g))
    (htext : Generates before g text) (hpath : g.value? .outfile = none) :
    Ends arguments before (succeeded g (produce before.read g).records text, before)
  | written {g : Given} {text path : String} {after : Tree}
    (hparse : Request.parse arguments = .ok (.generate g)) (htext : Generates before g text)
    (hpath : g.value? .outfile = some path) (hwrite : before.write path text = .ok after) :
    Ends arguments before (succeeded g (produce before.read g).records "", after)

variable {arguments : List String} {before : Tree} {ending : Shown × Tree}

theorem run_of_usage {fault : UsageFault} (hparse : Request.parse arguments = .error fault) :
    run before arguments = ({ exitCode := 2 }, before) := by
  rw [run, hparse]

theorem run_of_generate (hparse : Request.parse arguments = .ok (.generate g)) :
    run before arguments = runGiven before g := by
  rw [run, hparse]

theorem run_of_stops (hparse : Request.parse arguments = .ok (.generate g))
    (hstops : Stops before g failure) :
    run before arguments = (failed g (produce before.read g).records failure, before) := by
  rw [run_of_generate hparse, runGiven_of_stops hstops]

theorem ends_run (arguments : List String) (before : Tree) :
    Ends arguments before (run before arguments) := by
  cases hparse : Request.parse arguments with
  | error fault =>
    rw [run_of_usage hparse]
    exact .usage hparse
  | ok request =>
    cases request with
    | version =>
      rw [run, hparse]
      exact .information _ hparse nofun
    | help =>
      rw [run, hparse]
      exact .information _ hparse nofun
    | generate g =>
      rcases stops_or_generates before g with ⟨failure, hstops⟩ | ⟨text, htext, hwrites⟩
      · rw [run_of_stops hparse hstops]
        exact .failed hparse hstops
      · rw [run_of_generate hparse]
        cases hpath : g.value? .outfile with
        | none =>
          rw [runGiven_of_generates htext hpath]
          exact .shown hparse htext hpath
        | some path =>
          obtain ⟨after, hwrite⟩ := hwrites path hpath
          rw [runGiven_of_write htext hpath hwrite]
          exact .written hparse htext hpath hwrite

theorem exitCode_failed (g : Given) (records : List Log.Record) (failure : Failure) :
    (failed g records failure).exitCode = if failure = .brokenOff then 101 else 1 := by
  cases failure <;> rfl

theorem stdout_failed (g : Given) (records : List Log.Record) (failure : Failure) :
    (failed g records failure).stdout = "" := by
  cases failure <;> rfl

/-- Nothing is written if the exit code tells of a failure. -/
theorem Ends.eq_before_of_exitCode (h : Ends arguments before ending)
    (hcode : ending.1.exitCode ≠ 0) : ending.2 = before ∧ ending.1.stdout = "" := by
  cases h with
  | usage => exact ⟨rfl, rfl⟩
  | failed => exact ⟨rfl, stdout_failed _ _ _⟩
  | information | shown | written => exact absurd rfl hcode

/-- Each exit code but that of success has its own reason. -/
theorem Ends.exitCode_cases (h : Ends arguments before ending) :
    ending.1.exitCode = 0 ∨
      (ending.1.exitCode = 2 ∧ ∃ fault, Request.parse arguments = .error fault) ∨
      (ending.1.exitCode = 101 ∧
        ∃ g, Request.parse arguments = .ok (.generate g) ∧ Stops before g .brokenOff) ∨
      (ending.1.exitCode = 1 ∧ ∃ g failure, Request.parse arguments = .ok (.generate g) ∧
        Stops before g failure ∧ failure ≠ .brokenOff) := by
  cases h with
  | usage hparse => exact .inr (.inl ⟨rfl, _, hparse⟩)
  | @failed g failure hparse hstops =>
    right; right
    by_cases hbroken : failure = .brokenOff
    · subst hbroken
      exact .inl ⟨rfl, g, hparse, hstops⟩
    · exact .inr ⟨by rw [exitCode_failed, if_neg hbroken], g, failure, hparse, hstops, hbroken⟩
  | information | shown | written => exact .inl rfl

/-- A failure that is told is told as the last record, and as the only one of its level, whatever
options have been given. -/
theorem records_failed (g : Given) {records : List Log.Record}
    (hcalm : ∀ record ∈ records, record.level ≠ .error) (h : failure ≠ .brokenOff) :
    ∃ earlier, (∀ record ∈ earlier, record.level ≠ .error) ∧
      (failed g records failure).records = earlier ++ [⟨.error, failure.text⟩] := by
  refine ⟨Log.shown g.threshold records, fun record hrecord => ?_, ?_⟩
  · exact hcalm record (List.mem_filter.mp hrecord).1
  · have hshown : Log.Record.isShown g.threshold ⟨.error, failure.text⟩ = true := by
      cases g.threshold <;> rfl
    cases failure with
    | brokenOff => exact absurd rfl h
    | _ => simp [failed, Log.shown, hshown]

theorem stderr_append_singleton (shown : Shown) {earlier : List Log.Record} {message : String}
    (h : shown.records = earlier ++ [⟨.error, message⟩]) :
    shown.stderr = String.join (earlier.map recordText) ++ "trampgen: error: " ++ message ++ "\n" := by
  simp [Shown.stderr, h, recordText, Log.Level.tag, String.append_assoc]

/-! ## All or nothing -/

/-- What a run with some arguments shows, and what it makes of a tree, if it writes one whole text
or nothing at all. -/
structure WritesAllOrNothing (arguments : List String) (before : Tree) (shown : Shown)
    (after : Tree) : Prop where
  exitCode : shown.exitCode ∈ [0, 1, 2, 101]
  /-- A run that does not succeed writes nothing. -/
  nothing : shown.exitCode ≠ 0 → after = before ∧ shown.stdout = ""
  usage : shown.exitCode = 2 ↔ ∃ fault, Request.parse arguments = .error fault
  brokenOff : shown.exitCode = 101 ↔
    ∃ g, Request.parse arguments = .ok (.generate g) ∧ Stops before g .brokenOff
  failed : shown.exitCode = 1 ↔
    ∃ g failure, Request.parse arguments = .ok (.generate g) ∧ Stops before g failure ∧
      failure ≠ .brokenOff
  /-- A failure is told at the end of standard error, and nothing else is told there as one. -/
  told : ∀ g failure, Request.parse arguments = .ok (.generate g) → Stops before g failure →
    failure ≠ .brokenOff → ∃ earlier, (∀ record ∈ earlier, record.level ≠ .error) ∧
      shown.records = earlier ++ [⟨.error, failure.text⟩] ∧
      shown.stderr = String.join (earlier.map recordText) ++
        "trampgen: error: " ++ failure.text ++ "\n"
  /-- A run that succeeds writes the generated text to the file that is named and changes no
  other place, or shows it and changes no place at all. -/
  all : ∀ g, Request.parse arguments = .ok (.generate g) → shown.exitCode = 0 →
    ∃ text, Generates before g text ∧
      match g.value? .outfile with
      | some path => shown.stdout = "" ∧ Tree.Rewrites before after path text
      | none => shown.stdout = text ∧ after = before

/-- What is left behind by a run that is asked for a text and succeeds. -/
theorem Ends.generates_of_exitCode (h : Ends arguments before ending)
    (hparse : Request.parse arguments = .ok (.generate g)) (hcode : ending.1.exitCode = 0) :
    ∃ text, Generates before g text ∧
      match g.value? .outfile with
      | some path => ending.1.stdout = "" ∧ Tree.Rewrites before ending.2 path text
      | none => ending.1.stdout = text ∧ ending.2 = before := by
  cases h with
  | usage hfault => cases hcode
  | information text hinformation hrequest =>
    rw [hparse] at hinformation
    cases hinformation
    exact absurd rfl (hrequest g)
  | failed =>
    rw [exitCode_failed] at hcode
    split at hcode <;> cases hcode
  | shown hgiven htext hpath =>
    rw [hparse] at hgiven
    cases hgiven
    rw [hpath]
    exact ⟨_, htext, rfl, rfl⟩
  | written hgiven htext hpath hwrite =>
    rw [hparse] at hgiven
    cases hgiven
    rw [hpath]
    exact ⟨_, htext, rfl, Tree.rewrites_of_write hwrite⟩

/-- A run writes one whole text or nothing, whatever its arguments are and whatever files it
finds. -/
theorem writesAllOrNothing_run (arguments : List String) (before : Tree) :
    WritesAllOrNothing arguments before (run before arguments).1 (run before arguments).2 := by
  have hends := ends_run arguments before
  constructor
  case exitCode =>
    rcases hends.exitCode_cases with hcode | ⟨hcode, -⟩ | ⟨hcode, -⟩ | ⟨hcode, -⟩ <;> simp [hcode]
  case nothing => exact hends.eq_before_of_exitCode
  case usage =>
    constructor
    · intro hcode
      rcases hends.exitCode_cases with h | ⟨-, husage⟩ | ⟨h, -⟩ | ⟨h, -⟩
      · omega
      · exact husage
      · omega
      · omega
    · rintro ⟨fault, hparse⟩
      rw [run_of_usage hparse]
  case brokenOff =>
    constructor
    · intro hcode
      rcases hends.exitCode_cases with h | ⟨h, -⟩ | ⟨-, hbroken⟩ | ⟨h, -⟩
      · omega
      · omega
      · exact hbroken
      · omega
    · rintro ⟨g, hparse, hstops⟩
      rw [run_of_stops hparse hstops]
      rfl
  case failed =>
    constructor
    · intro hcode
      rcases hends.exitCode_cases with h | ⟨h, -⟩ | ⟨h, -⟩ | ⟨-, hfailed⟩
      · omega
      · omega
      · omega
      · exact hfailed
    · rintro ⟨g, failure, hparse, hstops, hbroken⟩
      rw [run_of_stops hparse hstops, exitCode_failed, if_neg hbroken]
  case told =>
    intro g failure hparse hstops hbroken
    rw [run_of_stops hparse hstops]
    obtain ⟨earlier, hcalm, hrecords⟩ := records_failed g (isCalm_produce before.read g) hbroken
    exact ⟨earlier, hcalm, hrecords, stderr_append_singleton _ hrecords⟩
  case all => exact fun g hparse hcode => hends.generates_of_exitCode hparse hcode

end CallBridge.CommandLine

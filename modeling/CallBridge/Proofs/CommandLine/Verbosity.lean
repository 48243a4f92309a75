import CallBridge.Proofs.CommandLine.Course
import CallBridge.Proofs.CommandLine.VerbosityLevel

/-!
# Verbosity chooses among the records of a run

A run logs the same whatever `-v` and `-q` say.  They choose the records that are shown, and nothing
else: not what is generated, not where it is written, not whether the run fails.

* `Given.log` is everything that a run logs, said of its steps one after the other.
  `records_runGiven`: a run shows the records of this log that its threshold lets through;
* `rank_threshold`: the threshold rises by one level with each `-v`, up to the last level;
* `runGiven_plain`: without `-v` and `-q`, a run ends in the same way;
* `runs_alike_but_for_records` compares two runs of the whole program.
-/

namespace CallBridge.CommandLine

open Files (FileFault Tree)

variable {tree : Tree} {g : Given} {config : Config} {source : Source} {failure : Failure}
  {requirement : Option Dispatch.Requirement}

/-! ## What a run logs -/

/-- The record before a source is read. -/
def Given.openingRecord (g : Given) : Log.Record :=
  ⟨.info, "generating from " ++ g.source.2⟩

/-- The record of a failure. -/
def failureRecord (failure : Failure) : Log.Record :=
  ⟨.error, failure.text⟩

/-- Everything that a run in a directory tree logs, in order.  The configuration is read before the
first record; a failure of a later step comes after what has been logged until then. -/
def Given.log (g : Given) (tree : Tree) : List Log.Record :=
  match configuration tree.read g with
  | .error failure => [failureRecord failure]
  | .ok config =>
    match Source.load tree.read g.source.1 g.source.2 config with
    | .error failure => [g.openingRecord, failureRecord failure]
    | .ok source =>
      match requirement? tree.read g config with
      | .error failure => [g.openingRecord, failureRecord failure]
      | .ok requirement =>
        let output := ((Generator.mk config g.options requirement).run source).1
        match (g.value? .outfile).map fun path => tree.write path output.text with
        | some (.error fault) => g.openingRecord :: output.log ++ [failureRecord (.file fault)]
        | _ => g.openingRecord :: output.log

namespace Logged

variable {α β : Type}

@[simp] theorem ofResult_ok_bind (a : α) (f : α → Logged β) : (ofResult (.ok a) >>= f) = f a :=
  rfl

@[simp] theorem ofResult_error_bind (failure : Failure) (f : α → Logged β) :
    (ofResult (.error failure) >>= f) = ⟨[], .error failure⟩ :=
  rfl

@[simp] theorem record_bind (r : Log.Record) (f : Unit → Logged β) :
    (record r >>= f) = ⟨r :: (f ()).records, (f ()).result⟩ :=
  rfl

end Logged

theorem produce_of_configuration (hconfig : configuration tree.read g = .error failure) :
    produce tree.read g = ⟨[], .error failure⟩ := by
  simp [produce, hconfig]

theorem produce_of_source (hconfig : configuration tree.read g = .ok config)
    (hsource : Source.load tree.read g.source.1 g.source.2 config = .error failure) :
    produce tree.read g = ⟨[g.openingRecord], .error failure⟩ := by
  simp [produce, hconfig, hsource, Given.openingRecord]

theorem produce_of_requirement (hconfig : configuration tree.read g = .ok config)
    (hsource : Source.load tree.read g.source.1 g.source.2 config = .ok source)
    (hrequirement : requirement? tree.read g config = .error failure) :
    produce tree.read g = ⟨[g.openingRecord], .error failure⟩ := by
  simp [produce, hconfig, hsource, hrequirement, Given.openingRecord]

theorem produce_of_run (hconfig : configuration tree.read g = .ok config)
    (hsource : Source.load tree.read g.source.1 g.source.2 config = .ok source)
    (hrequirement : requirement? tree.read g config = .ok requirement) :
    produce tree.read g =
      let output := ((Generator.mk config g.options requirement).run source).1
      ⟨g.openingRecord :: output.log, .ok output.text⟩ := by
  simp [produce, hconfig, hsource, hrequirement, Given.openingRecord]

/-- A failure is shown behind the records before it, unless the run breaks off. -/
theorem records_failed_eq (g : Given) (records : List Log.Record)
    (hexit : (failed g records failure).exitCode ≠ 101) :
    (failed g records failure).records =
      Log.shown g.threshold (records ++ [failureRecord failure]) := by
  cases failure with
  | brokenOff => exact absurd rfl hexit
  | file | source | config => rfl

/-- A run shows the records of its log that the threshold lets through. -/
theorem records_runGiven (tree : Tree) (g : Given) (hexit : (runGiven tree g).1.exitCode ≠ 101) :
    (runGiven tree g).1.records = Log.shown g.threshold (g.log tree) := by
  have hfailed {records : List Log.Record} {failure : Failure}
      (hproduce : produce tree.read g = ⟨records, .error failure⟩) :
      (runGiven tree g).1.records = Log.shown g.threshold (records ++ [failureRecord failure]) := by
    have hresult : (produce tree.read g).result = .error failure := by
      rw [hproduce]
    rw [runGiven_of_result hresult, hproduce] at hexit ⊢
    exact records_failed_eq g records hexit
  cases hconfig : configuration tree.read g with
  | error failure =>
    rw [hfailed (produce_of_configuration hconfig), Given.log, hconfig]
    rfl
  | ok config =>
    cases hsource : Source.load tree.read g.source.1 g.source.2 config with
    | error failure =>
      rw [hfailed (produce_of_source hconfig hsource), Given.log, hconfig]
      simp only [hsource]
      rfl
    | ok source =>
      cases hrequirement : requirement? tree.read g config with
      | error failure =>
        rw [hfailed (produce_of_requirement hconfig hsource hrequirement), Given.log, hconfig]
        simp only [hsource, hrequirement]
        rfl
      | ok requirement =>
        have hproduce := produce_of_run hconfig hsource hrequirement
        have htext : Generates tree g _ := .text hconfig hsource hrequirement
        rw [Given.log, hconfig]
        simp only [hsource, hrequirement]
        cases hpath : g.value? .outfile with
        | none =>
          rw [runGiven_of_generates htext hpath, hproduce]
          rfl
        | some path =>
          cases hwrite : tree.write path
              ((Generator.mk config g.options requirement).run source).1.text with
          | error fault =>
            rw [runGiven_of_stops (.outfile htext hpath hwrite), hproduce]
            simp only [Option.map_some, hwrite]
            rfl
          | ok after =>
            rw [runGiven_of_write htext hpath hwrite, hproduce]
            simp only [Option.map_some, hwrite]
            rfl

/-! ## Which records are shown -/

theorem rank_threshold (g : Given) : g.threshold.rank = min (g.verbosity + 1) 5 := by
  unfold Given.threshold Log.threshold Given.verbosity
  cases g.has .quiet with
  | true => rfl
  | false =>
    generalize g.verbose = n
    match n with
    | 0 => rfl
    | 1 => rfl
    | 2 => rfl
    | n + 3 =>
      have hmin : min (n + 3 + 1 + 1) 5 = 5 := by omega
      exact hmin.symm

/-- A run shows the records of a log that a verbosity lets through, in the order in which they have
been logged: errors in any case, then warnings, information, and details of two levels. -/
structure Shown.Filters (shown : Shown) (log : List Log.Record) (verbosity : Nat) : Prop where
  records : shown.records = log.filter fun record => record.level.rank ≤ verbosity + 1
  stderr : shown.stderr = String.join (shown.records.map fun record =>
    "trampgen: " ++ record.level.tag ++ ": " ++ record.message ++ "\n")

theorem shown_threshold (g : Given) (log : List Log.Record) :
    Log.shown g.threshold log = log.filter fun record => record.level.rank ≤ g.verbosity + 1 := by
  refine List.filter_congr fun record _ => ?_
  have hrank : record.level.rank ≤ 5 := by
    cases record.level <;> decide
  rw [Log.Record.isShown, rank_threshold, decide_eq_decide]
  omega

/-- At a higher verbosity, all is shown that is shown at a lower one. -/
theorem Shown.Filters.sublist {shown shown' : Shown} {log : List Log.Record} {low high : Nat}
    (hlow : shown.Filters log low) (hhigh : shown'.Filters log high) (h : low ≤ high) :
    shown.records.Sublist shown'.records := by
  rw [hlow.records, hhigh.records]
  refine List.monotone_filter_right log fun record hrecord => ?_
  have hrank := of_decide_eq_true hrecord
  exact decide_eq_true (by omega)

theorem filters_runGiven (tree : Tree) (g : Given) (hexit : (runGiven tree g).1.exitCode ≠ 101) :
    (runGiven tree g).1.Filters (g.log tree) g.verbosity where
  records := by rw [records_runGiven tree g hexit, shown_threshold]
  stderr := rfl

/-! ## A run without -v and -q -/

theorem options_plain (g : Given) : g.plain.options = g.options := by
  simp [Given.options, has_plain]

theorem produce_plain (read : String → Except FileFault String) (g : Given) :
    produce read g.plain = produce read g := by
  rw [produce, options_plain]
  rfl

theorem log_plain (tree : Tree) (g : Given) : g.plain.log tree = g.log tree := by
  rw [Given.log, options_plain]
  rfl

theorem conclude_plain (g : Given) (produced : Logged String) (written : Except FileFault Unit) :
    (conclude g.plain produced written).exitCode = (conclude g produced written).exitCode ∧
      (conclude g.plain produced written).stdout = (conclude g produced written).stdout := by
  cases hresult : produced.result with
  | error failure => simp [conclude, hresult, exitCode_failed, stdout_failed]
  | ok text =>
    cases written with
    | error fault => simp [conclude, hresult, exitCode_failed, stdout_failed]
    | ok _ =>
      simp only [conclude, hresult]
      exact ⟨rfl, rfl⟩

/-- Without `-v` and `-q`, a run ends in the same way. -/
theorem runGiven_plain (tree : Tree) (g : Given) :
    (runGiven tree g.plain).1.exitCode = (runGiven tree g).1.exitCode ∧
      (runGiven tree g.plain).1.stdout = (runGiven tree g).1.stdout ∧
      (runGiven tree g.plain).2 = (runGiven tree g).2 := by
  have hwrite (produced : Logged String) : toWrite g.plain produced = toWrite g produced := rfl
  rw [runGiven, runGiven, produce_plain, hwrite]
  cases toWrite g (produce tree.read g) with
  | none =>
    obtain ⟨hexit, hstdout⟩ := conclude_plain g (produce tree.read g) (.ok ())
    exact ⟨hexit, hstdout, rfl⟩
  | some target =>
    obtain ⟨path, text⟩ := target
    cases hresult : tree.write path text with
    | ok after =>
      obtain ⟨hexit, hstdout⟩ := conclude_plain g (produce tree.read g) (.ok ())
      simp only [hresult, and_true]
      exact ⟨hexit, hstdout⟩
    | error fault =>
      obtain ⟨hexit, hstdout⟩ := conclude_plain g (produce tree.read g) (.error fault)
      simp only [hresult, and_true]
      exact ⟨hexit, hstdout⟩

/-! ## Whole runs -/

variable {arguments first second : List String} {request request' : Request}

/-- Everything that is logged on a request.  One for information is answered before anything is
logged. -/
def Request.log (request : Request) (tree : Tree) : List Log.Record :=
  match request with
  | .generate given => given.log tree
  | .version => []
  | .help => []

theorem Request.log_plain (request : Request) (tree : Tree) :
    request.plain.log tree = request.log tree := by
  cases request with
  | generate given => exact CommandLine.log_plain tree given
  | version => rfl
  | help => rfl

theorem filters_run (hparse : Request.parse arguments = .ok request) (before : Tree)
    (hexit : (run before arguments).1.exitCode ≠ 101) :
    (run before arguments).1.Filters (request.log before) (verbosity arguments) := by
  cases request with
  | generate given =>
    rw [run_of_generate hparse] at hexit ⊢
    rw [← verbosity_of_parse hparse]
    exact filters_runGiven before given hexit
  | version =>
    rw [run, hparse]
    exact ⟨rfl, rfl⟩
  | help =>
    rw [run, hparse]
    exact ⟨rfl, rfl⟩

theorem run_withoutVerbosity (hparse : Request.parse arguments = .ok request) (before : Tree) :
    let plain := run before (withoutVerbosity arguments)
    let ending := run before arguments
    plain.1.exitCode = ending.1.exitCode ∧ plain.1.stdout = ending.1.stdout ∧
      plain.2 = ending.2 := by
  have hplain := parse_withoutVerbosity hparse
  cases request with
  | generate given =>
    rw [run_of_generate hparse, run_of_generate hplain]
    exact runGiven_plain before given
  | version =>
    rw [run, run, hparse, hplain]
    exact ⟨rfl, rfl, rfl⟩
  | help =>
    rw [run, run, hparse, hplain]
    exact ⟨rfl, rfl, rfl⟩

/-- Two runs whose arguments differ in `-v` and `-q` only, in the same directory tree.

* They have the same exit code, show the same text and leave the same tree.
* If the exit code tells of success or of a failure, they log the same.  Each shows the records of
  this log that its verbosity lets through, and the one that is asked to tell more shows at least
  what the other one shows, in the same order. -/
theorem runs_alike_but_for_records (hfirst : Request.parse first = .ok request)
    (hsecond : Request.parse second = .ok request')
    (halike : withoutVerbosity first = withoutVerbosity second) (before : Tree) :
    let one := run before first
    let other := run before second
    (one.1.exitCode = other.1.exitCode ∧ one.1.stdout = other.1.stdout ∧ one.2 = other.2) ∧
    (one.1.exitCode = 0 ∨ one.1.exitCode = 1 →
      request.log before = request'.log before ∧
      one.1.Filters (request.log before) (verbosity first) ∧
      other.1.Filters (request'.log before) (verbosity second) ∧
      (verbosity first ≤ verbosity second → one.1.records.Sublist other.1.records)) := by
  intro one other
  have hplain : request.plain = request'.plain := by
    have hread := parse_withoutVerbosity hfirst
    rw [halike, parse_withoutVerbosity hsecond] at hread
    exact (Except.ok.inj hread).symm
  have hlog : request.log before = request'.log before := by
    rw [← Request.log_plain request, hplain, Request.log_plain]
  obtain ⟨hexit, hstdout, htree⟩ := run_withoutVerbosity hfirst before
  obtain ⟨hexit', hstdout', htree'⟩ := run_withoutVerbosity hsecond before
  rw [← halike] at hexit' hstdout' htree'
  have hsame : one.1.exitCode = other.1.exitCode := hexit.symm.trans hexit'
  refine ⟨⟨hsame, hstdout.symm.trans hstdout', htree.symm.trans htree'⟩, fun hcode => ?_⟩
  have hends : one.1.exitCode ≠ 101 := by omega
  have hfilters := filters_run hfirst before hends
  have hfilters' := filters_run hsecond before (hsame ▸ hends)
  exact ⟨hlog, hfilters, hfilters', hfilters.sublist (hlog ▸ hfilters')⟩

/-- A directory with one header. -/
def headerTree : Tree :=
  ⟨[(["gl.h"], .file "GLAPI void APIENTRY glFoo(void);\n".toUTF8)]⟩

/-- Arguments that ask to be told as little as possible. -/
def quietArguments : List String :=
  ["--header", "gl.h", "-qogl.c"]

/-- The same arguments, but asking to be told more. -/
def wordyArguments : List String :=
  ["--verbose", "--header", "gl.h", "-vogl.c"]

/-- Both runs write the same file, and only the second one tells of it. -/
theorem runs_of_headerTree :
    ((run headerTree quietArguments).1.exitCode = 0 ∧
      (run headerTree wordyArguments).1.exitCode = 0 ∧
      (run headerTree quietArguments).2 = (run headerTree wordyArguments).2) ∧
    (run headerTree quietArguments).1.records = [] ∧
    (run headerTree wordyArguments).1.records = [⟨.info, "generating from gl.h"⟩,
      ⟨.debug, "emitted glFooWrapper (DirectCall)"⟩,
      ⟨.info, "1 declarations, 1 wrappers, 0 diagnostics"⟩] ∧
    (run headerTree quietArguments).1.records.Sublist
      (run headerTree wordyArguments).1.records := by
  have hquiet : Request.parse quietArguments =
      .ok (.generate ⟨[(.header, "gl.h"), (.outfile, "gl.c")], [.quiet], 0⟩) := by
    decide +kernel
  have hwordy : Request.parse wordyArguments =
      .ok (.generate ⟨[(.header, "gl.h"), (.outfile, "gl.c")], [], 2⟩) := by
    decide +kernel
  have halike : withoutVerbosity quietArguments = withoutVerbosity wordyArguments := by
    decide +kernel
  obtain ⟨⟨hexit, -, htree⟩, hrecords⟩ :=
    runs_alike_but_for_records hquiet hwordy halike headerTree
  have hcode : (run headerTree quietArguments).1.exitCode = 0 := by
    decide +kernel
  obtain ⟨-, hfew, hmany, hsublist⟩ := hrecords (.inl hcode)
  refine ⟨⟨hcode, hexit.symm.trans hcode, htree⟩, ?_, ?_, hsublist (by decide +kernel)⟩
  · rw [hfew.records]
    decide +kernel
  · rw [hmany.records]
    decide +kernel

end CallBridge.CommandLine

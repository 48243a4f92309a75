import CallBridge.CommandLine.Arguments
import CallBridge.Failure
import CallBridge.Generation

/-!
# Running the program

`produce` generates a file from what the options name and logs what happens.
`toWrite` is what is to be written then, and `conclude` turns the result into what
the run shows: exit code, standard output and the records on standard error.  `run`
does it all in a directory tree.

Nothing is written unless the whole text has been generated, and the options `-v`
and `-q` reach nothing but the choice of records.
-/

namespace CallBridge.CommandLine

open Files (FileFault Tree)

/-- A result, and the records logged on the way. -/
structure Logged (α : Type) where
  records : List Log.Record
  result : Except Failure α

namespace Logged

/-- A result without records. -/
def ofResult {α : Type} (result : Except Failure α) : Logged α :=
  ⟨[], result⟩

/-- Logs one record. -/
def record (r : Log.Record) : Logged Unit :=
  ⟨[r], .ok ()⟩

instance : Monad Logged where
  pure a := ⟨[], .ok a⟩
  bind x f :=
    match x.result with
    | .error failure => ⟨x.records, .error failure⟩
    | .ok a => ⟨x.records ++ (f a).records, (f a).result⟩

end Logged

/-- Turns a failure of the configuration into a failure of the run. -/
def ofConfig {α : Type} (result : Except ConfigFailure α) : Except Failure α :=
  match result with
  | .ok a => .ok a
  | .error failure => .error (.config failure)

/-- The configuration of a run: that of the file, if one is named, with the API name
of the options, if one is given.  A given name is checked like one in a file. -/
def configuration (read : String → Except FileFault String) (g : Given) :
    Except Failure Config := do
  let config ←
    match g.value? .config with
    | some path => ofConfig (Config.load read path)
    | none => .ok {}
  match g.value? .apiPrefix with
  | some name => ofConfig { config with apiPrefix := name }.checked
  | none => .ok config

/-- What the options say about generated code. -/
def Given.options (g : Given) : Generated.Options where
  trace := !g.has .noDebugCount
  isStatic := g.has .staticWrappers
  preresolve := g.has .preresolve
  prelude := !g.has .noPrelude

/-- The source that the options name. -/
def Given.source (g : Given) : SourceKind × String :=
  match g.value? .registry with
  | some path => (.registry, path)
  | none => (.header, (g.value? .header).getD "")

/-- The slots to be filled, if a dispatch header is named. -/
def requirement? (read : String → Except FileFault String) (g : Given) (config : Config) :
    Except Failure (Option Dispatch.Requirement) :=
  match g.value? .dispatchHeader with
  | none => .ok none
  | some path => (Dispatch.Requirement.load read path config).map some

/-- Generates the file that the options ask for. -/
def produce (read : String → Except FileFault String) (g : Given) : Logged String := do
  let config ← Logged.ofResult (configuration read g)
  let (kind, path) := g.source
  Logged.record ⟨.info, "generating from " ++ path⟩
  let source ← Logged.ofResult (Source.load read kind path config)
  let requirement ← Logged.ofResult (requirement? read g config)
  let generator : Generator := ⟨config, g.options, requirement⟩
  let output := (generator.run source).1
  ⟨output.log, .ok output.text⟩

/-- What a run shows: exit code, standard output and records on standard error. -/
structure Shown where
  exitCode : Nat
  stdout : String := ""
  records : List Log.Record := []
  deriving DecidableEq, Repr

/-- How records are written on standard error. -/
def recordText (record : Log.Record) : String :=
  "trampgen: " ++ record.level.tag ++ ": " ++ record.message ++ "\n"

/-- Standard error. -/
def Shown.stderr (shown : Shown) : String :=
  String.join (shown.records.map recordText)

/-- The name and version of the program. -/
def versionText : String :=
  "trampgen 0.1.0\n"

/-- How the program is used. -/
def usageText : String :=
  "Usage: trampgen [OPTIONS] <--registry <FILE>|--header <FILE>>\n"

/-- The threshold that the options choose. -/
def Given.threshold (g : Given) : Log.Level :=
  Log.threshold g.verbose (g.has .quiet)

/-- What is shown after a failure: its text as the last record.  A run that breaks
off has an exit code of its own. -/
def failed (g : Given) (records : List Log.Record) (failure : Failure) : Shown :=
  match failure with
  | .brokenOff => { exitCode := 101, records := Log.shown g.threshold records }
  | failure =>
    { exitCode := 1
      records := Log.shown g.threshold (records ++ [⟨.error, failure.text⟩]) }

/-- What is shown after a success. -/
def succeeded (g : Given) (records : List Log.Record) (stdout : String) : Shown :=
  { exitCode := 0, stdout := stdout, records := Log.shown g.threshold records }

/-- What a run is to write, and where: the generated text, if a file is named. -/
def toWrite (g : Given) (produced : Logged String) : Option (String × String) :=
  match produced.result, g.value? .outfile with
  | .ok text, some path => some (path, text)
  | _, _ => none

/-- What is shown when all that was to be written has been written, or could not be.
The text goes to standard output only if no file is named. -/
def conclude (g : Given) (produced : Logged String) (written : Except FileFault Unit) : Shown :=
  match produced.result, written with
  | .error failure, _ => failed g produced.records failure
  | .ok _, .error fault => failed g produced.records (.file fault)
  | .ok text, .ok () =>
    succeeded g produced.records (if (g.value? .outfile).isSome then "" else text)

/-- Runs what the options ask for in a directory tree.  Gives what is shown, and the
tree as it is left. -/
def runGiven (tree : Tree) (g : Given) : Shown × Tree :=
  let produced := produce tree.read g
  match toWrite g produced with
  | none => (conclude g produced (.ok ()), tree)
  | some (path, text) =>
    match tree.write path text with
    | .ok tree => (conclude g produced (.ok ()), tree)
    | .error fault => (conclude g produced (.error fault), tree)

/-- The files that options name to be read. -/
def Given.inputs (g : Given) : List String :=
  [g.value? .config, some g.source.2, g.value? .dispatchHeader].filterMap id

/-- Runs the program with arguments in a directory tree. -/
def run (tree : Tree) (arguments : List String) : Shown × Tree :=
  match Request.parse arguments with
  | .error _ => ({ exitCode := 2 }, tree)
  | .ok .version => ({ exitCode := 0, stdout := versionText }, tree)
  | .ok .help => ({ exitCode := 0, stdout := usageText }, tree)
  | .ok (.generate g) => runGiven tree g

end CallBridge.CommandLine

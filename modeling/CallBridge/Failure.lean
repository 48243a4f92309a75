import CallBridge.Config.Check
import CallBridge.Config.Decode
import CallBridge.Dispatch.Requirement
import CallBridge.Files.Tree
import CallBridge.Source

/-!
# Failures, and reading what a run needs

A run needs a configuration, a source and perhaps a dispatch header, all read from
files.  `read` stands for reading one file: it gives a text or says why not.

* `Config.load`, `Source.load` and `Dispatch.Requirement.load` read one file each;
* `Failure.text` is what users see of a failure.
-/

namespace CallBridge

open Files (FileFault)

/-- Why a configuration cannot be had. -/
inductive ConfigFailure where
  | unreadable (fault : FileFault)
  | malformed (problem : Json.Problem)
  | invalid (field : TextField) (fault : FieldFault)
  deriving DecidableEq, Repr

/-- What is said of a field with a value that is not allowed. -/
def invalidText (field message : String) : String :=
  "[CFG402] 設定値が不正です: " ++ field ++ ": " ++ message

/-- What is wrong with a JSON text, in words. -/
def Json.Problem.message : Json.Problem → String
  | .endedEarly => "the text ends too early"
  | .malformed => "the text is not JSON"
  | .misfit => "a key or a value is not one of a configuration"

/-- A failure of the configuration as users see it. -/
def ConfigFailure.text : ConfigFailure → String
  | .unreadable fault => "[CFG400] 設定ファイルを読めません: " ++ fault.message
  | .malformed problem => "[CFG401] 設定ファイルの JSON が不正です: " ++ problem.message
  | .invalid field fault => invalidText field.key fault.message

/-- Why a run yields nothing. -/
inductive Failure where
  | file (fault : FileFault)
  | source (report : Report)
  | config (failure : ConfigFailure)
  /-- The run breaks off: a header argument would be cut inside a character. -/
  | brokenOff
  deriving DecidableEq, Repr

/-- What is said of a source that is rejected. -/
def sourceText (report : Report) : String :=
  "宣言ソースの読み取りに失敗しました: " ++ report.text

/-- A failure as users see it.  A run that breaks off says nothing more. -/
def Failure.text : Failure → String
  | .file fault => "IO error: " ++ fault.message
  | .source report => sourceText report
  | .config failure => failure.text
  | .brokenOff => ""

/-- The failure of a header. -/
def Failure.ofHeader (fault : Header.Fault) : Failure :=
  match fault.report? with
  | some report => .source report
  | none => .brokenOff

namespace Config

/-- The configuration, if nothing is wrong with it. -/
def checked (c : Config) : Except ConfigFailure Config :=
  match c.check? with
  | none => .ok c
  | some (field, fault) => .error (.invalid field fault)

/-- Reads and checks a configuration text. -/
def parse (text : String) : Except ConfigFailure Config :=
  match ofJson text with
  | .ok c => c.checked
  | .error problem => .error (.malformed problem)

/-- Reads a configuration file. -/
def load (read : String → Except FileFault String) (path : String) :
    Except ConfigFailure Config :=
  match read path with
  | .ok text => parse text
  | .error fault => .error (.unreadable fault)

end Config

/-- The kinds of files that declare functions. -/
inductive SourceKind where
  | header
  | registry
  deriving DecidableEq, Repr

/-- Reads a source from its text. -/
def Source.parse (kind : SourceKind) (provenance text api : String) : Except Failure Source :=
  match kind with
  | .header =>
    match Source.ofHeader provenance text with
    | .ok source => .ok source
    | .error fault => .error (.ofHeader fault)
  | .registry =>
    match Source.ofRegistry provenance text api with
    | .ok source => .ok source
    | .error report => .error (.source report)

/-- Reads a source file.  The file name, without directories, is where its
declarations come from. -/
def Source.load (read : String → Except FileFault String) (kind : SourceKind) (path : String)
    (config : Config) : Except Failure Source :=
  match read path with
  | .ok text => Source.parse kind (Files.lastName path) text config.apiPrefix
  | .error fault => .error (.file fault)

/-- Reads the slots that a dispatch header states. -/
def Dispatch.Requirement.ofText (text : String) (config : Config) :
    Except Failure Dispatch.Requirement :=
  match Dispatch.Requirement.parse text config.apiPrefix config.ignoredSlots with
  | .ok requirement => .ok requirement
  | .error fault => .error (.source fault.report)

/-- Reads a dispatch header file. -/
def Dispatch.Requirement.load (read : String → Except FileFault String) (path : String)
    (config : Config) : Except Failure Dispatch.Requirement :=
  match read path with
  | .ok text => Dispatch.Requirement.ofText text config
  | .error fault => .error (.file fault)

end CallBridge

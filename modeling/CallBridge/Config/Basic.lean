import CallBridge.Policy.Exclusion
import CallBridge.Policy.Retention
import CallBridge.Signature
import CallBridge.Text.Bytes

/-!
# Configuration

The names and texts that generated code depends on, so that one can embed it
elsewhere without changing the generator.  Every field has a default.

The eleven fields are of two kinds, texts and lists of texts.  `TextField` and
`ListField` name them, with `Config.text`, `Config.setText`, `Config.list` and
`Config.setList` to read and replace one.
-/

namespace CallBridge

open Text

/-- The names and texts that generated code depends on. -/
structure Config where
  /-- What driver function names begin with. -/
  apiPrefix : String := "gl"
  /-- What is put behind a function name to get the name of its wrapper. -/
  wrapperSuffix : String := "Wrapper"
  /-- Features whose functions are called directly. -/
  baselineFeatures : List String := ["GL_VERSION_1_0", "GL_VERSION_1_1"]
  /-- Functions that get no wrapper. -/
  exclusions : List String := Policy.ownedNames
  /-- When a call is traced.  `{PREFIX}` stands for `apiPrefix` in capitals. -/
  traceCondition : String := "glxWinDebugSettings.enable\x7bPREFIX\x7dcallTrace"
  traceFunction : String := "ErrorF"
  directCallCounter : String := "glWinDirectProcCalls"
  /-- What a function returns if it cannot be resolved. -/
  failureSentinel : String := "FALSE"
  setupFunction : String := "glWinSetupDispatchTable"
  tableType : String := "struct _glapi_table"
  /-- Slots that are no entry points. -/
  ignoredSlots : List String := ["by_offset"]
  deriving DecidableEq, Repr

/-- The fields that hold a text. -/
inductive TextField where
  | apiPrefix
  | wrapperSuffix
  | traceCondition
  | traceFunction
  | directCallCounter
  | failureSentinel
  | setupFunction
  | tableType
  deriving DecidableEq, Repr

/-- The fields that hold a list of texts. -/
inductive ListField where
  | baselineFeatures
  | exclusions
  | ignoredSlots
  deriving DecidableEq, Repr

/-- The fields of a configuration. -/
inductive Field where
  | text (field : TextField)
  | list (field : ListField)
  deriving DecidableEq, Repr

/-- The key of a text field in a configuration file. -/
def TextField.key : TextField → String
  | apiPrefix => "prefix"
  | wrapperSuffix => "wrapper_suffix"
  | traceCondition => "trace_condition"
  | traceFunction => "trace_function"
  | directCallCounter => "direct_call_counter"
  | failureSentinel => "failure_sentinel"
  | setupFunction => "dispatch_setup_function"
  | tableType => "dispatch_table_type"

/-- The key of a list field in a configuration file. -/
def ListField.key : ListField → String
  | baselineFeatures => "baseline_features"
  | exclusions => "exclusions"
  | ignoredSlots => "dispatch_ignore"

namespace Field

/-- The key of a field in a configuration file. -/
def key : Field → String
  | text field => field.key
  | list field => field.key

/-- All fields, in the order in which a configuration lists them. -/
def all : List Field := [
  text .apiPrefix, text .wrapperSuffix, list .baselineFeatures, list .exclusions,
  text .traceCondition, text .traceFunction, text .directCallCounter, text .failureSentinel,
  text .setupFunction, text .tableType, list .ignoredSlots]

/-- The field with a key. -/
def ofKey? (key : String) : Option Field :=
  all.find? (·.key == key)

theorem ofKey?_key (field : Field) : ofKey? field.key = some field := by
  cases field with
  | text f => cases f <;> decide +kernel
  | list f => cases f <;> decide +kernel

end Field

/-- Replaces every occurrence of a text, from left to right.  `skip` characters
belong to the occurrence just replaced. -/
def replaceFrom (target replacement : List Char) : Nat → List Char → List Char
  | _, [] => []
  | skip + 1, _ :: cs => replaceFrom target replacement skip cs
  | 0, c :: cs =>
    if startsWith target (c :: cs) then
      replacement ++ replaceFrom target replacement (target.length - 1) cs
    else c :: replaceFrom target replacement 0 cs

namespace Config

/-- The value of a text field. -/
def text (c : Config) : TextField → String
  | .apiPrefix => c.apiPrefix
  | .wrapperSuffix => c.wrapperSuffix
  | .traceCondition => c.traceCondition
  | .traceFunction => c.traceFunction
  | .directCallCounter => c.directCallCounter
  | .failureSentinel => c.failureSentinel
  | .setupFunction => c.setupFunction
  | .tableType => c.tableType

/-- Replaces the value of a text field. -/
def setText (c : Config) (value : String) : TextField → Config
  | .apiPrefix => { c with apiPrefix := value }
  | .wrapperSuffix => { c with wrapperSuffix := value }
  | .traceCondition => { c with traceCondition := value }
  | .traceFunction => { c with traceFunction := value }
  | .directCallCounter => { c with directCallCounter := value }
  | .failureSentinel => { c with failureSentinel := value }
  | .setupFunction => { c with setupFunction := value }
  | .tableType => { c with tableType := value }

/-- The value of a list field. -/
def list (c : Config) : ListField → List String
  | .baselineFeatures => c.baselineFeatures
  | .exclusions => c.exclusions
  | .ignoredSlots => c.ignoredSlots

/-- Replaces the value of a list field. -/
def setList (c : Config) (value : List String) : ListField → Config
  | .baselineFeatures => { c with baselineFeatures := value }
  | .exclusions => { c with exclusions := value }
  | .ignoredSlots => { c with ignoredSlots := value }

theorem text_setText (c : Config) (value : String) (field other : TextField) :
    (c.setText value field).text other = if other = field then value else c.text other := by
  cases field <;> cases other <;> rfl

theorem list_setList (c : Config) (value : List String) (field other : ListField) :
    (c.setList value field).list other = if other = field then value else c.list other := by
  cases field <;> cases other <;> rfl

/-- The condition under which a call is traced, with `apiPrefix` filled in. -/
def traceTest (c : Config) : String :=
  String.ofList (replaceFrom "\x7bPREFIX\x7d".toList (asciiUpper c.apiPrefix).toList 0
    c.traceCondition.toList)

/-- The name of the wrapper of a function. -/
def wrapperName (c : Config) (name : String) : String :=
  name ++ c.wrapperSuffix

/-- The rules by which functions are retained, with or without a limit on names. -/
def rules (c : Config) (inclusion : Option (List String)) : Policy.Rules where
  exclusions := c.exclusions
  inclusion := inclusion
  baseline := c.baselineFeatures

end Config

end CallBridge

import CallBridge.Config.Basic
import CallBridge.Text.Quoted
import CallBridge.Text.Word

/-!
# Checking a configuration

Some fields may not be blank, and some become part of C names and have to be
identifiers.  `Config.check?` gives the first fault: blank fields come first, each
kind in the order of the fields.
-/

namespace CallBridge

open Text

/-- What is wrong with the value of a field. -/
inductive FieldFault where
  | blank
  | notIdentifier (value : String)
  deriving DecidableEq, Repr

/-- What a fault of a field says. -/
def FieldFault.message : FieldFault → String
  | blank => "空にはできません"
  | notIdentifier value => "C の識別子ではありません: " ++ quoted value

namespace Config

/-- The fields that may not be blank. -/
def requiredFields : List TextField :=
  [.apiPrefix, .wrapperSuffix, .traceFunction, .setupFunction, .tableType]

/-- The fields that become part of C names. -/
def nameFields : List TextField :=
  [.apiPrefix, .wrapperSuffix, .setupFunction]

/-- The first required field that is blank. -/
def blankField? (c : Config) : Option TextField :=
  requiredFields.find? fun field => (trim (c.text field).toList).isEmpty

/-- The first name field that is no identifier. -/
def unnamedField? (c : Config) : Option TextField :=
  nameFields.find? fun field => !isIdentifier (c.text field).toList

/-- The first fault of a configuration. -/
def check? (c : Config) : Option (TextField × FieldFault) :=
  match c.blankField? with
  | some field => some (field, .blank)
  | none => c.unnamedField?.map fun field => (field, .notIdentifier (c.text field))

/-- The default configuration has no fault. -/
theorem check?_default : ({} : Config).check? = none := by decide +kernel

end Config

end CallBridge

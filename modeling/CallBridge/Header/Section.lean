import CallBridge.Text.Match
import CallBridge.Text.Word

/-!
# Section comments

A header groups its prototypes under comments such as

    /* 1.3 functions */

Such a comment stands alone on its line.  The prototypes after it belong to the
API version it names.
-/

namespace CallBridge.Header

open Text

/-- The feature of the prototypes before the first section comment. -/
def initialFeature : String :=
  "GL_VERSION_1_0"

/-- The feature of an API version given by its two numbers. -/
def versionFeature (major minor : List Char) : String :=
  "GL_VERSION_" ++ String.ofList major ++ "_" ++ String.ofList minor

/-- The two numbers of a section comment. -/
def sectionVersion? (line : List Char) : Option (List Char × List Char) := do
  let cs ← after? ['/', '*'] line
  let (major, cs) ← run? isDecimal (trimStart cs)
  let cs ← after? ['.'] cs
  let (minor, cs) ← run? isDecimal cs
  let cs ← afterBlanks? cs
  let cs ← after? "functions".toList cs
  if trimStart cs = ['*', '/'] then some (major, minor) else none

/-- The feature that a section comment introduces. -/
def sectionFeature? (line : List Char) : Option String :=
  (sectionVersion? line).map fun version => versionFeature version.1 version.2

end CallBridge.Header

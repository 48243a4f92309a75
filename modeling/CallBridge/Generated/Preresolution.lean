import CallBridge.Generated.Code
import CallBridge.Generated.Literal
import CallBridge.Signature

/-!
# The pre-resolution block

Declares a resolution slot for each wrapped function, and a routine that resolves
all of them and returns how many could not be resolved.
-/

namespace CallBridge.Generated

/-- The name of the routine. -/
def resolveRoutine (apiPrefix : String) : String :=
  apiPrefix ++ "ResolveExtensionProcs"

/-- The line that declares the slot of a function. -/
def slotLine (s : Signature) : String :=
  "RESOLVE_DECL(" ++ s.procType ++ ");"

/-- The line that resolves a function. -/
def preresolveLine (s : Signature) : String :=
  "  PRERESOLVE(" ++ s.procType ++ ", " ++ literal s.name ++ ");"

/-- The block for the functions to be wrapped, in order. -/
def preresolutionText (signatures : List Signature) (apiPrefix : String) : String :=
  unlines
    (signatures.map slotLine ++
      ["", "int " ++ resolveRoutine apiPrefix ++ "(void)", "\x7b", "  int unresolved = 0;", ""] ++
      signatures.map preresolveLine ++
      ["", "  return unresolved;", "\x7d", ""])

end CallBridge.Generated

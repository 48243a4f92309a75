import CallBridge.Config.Basic
import CallBridge.Generated.Code
import CallBridge.Generated.Literal
import CallBridge.Log

/-!
# Wrappers

A wrapper is a function of the embedding program's calling convention that calls
one driver function.  It takes the parameters of the function under names of its
own, so that they cannot clash with types or macros.

A function of the baseline is called directly.  Any other is called through a
pointer that is resolved first; if that fails, the wrapper returns, with the
failure sentinel unless the function returns nothing.
-/

namespace CallBridge.Generated

/-- What is written into generated code besides the wrappers, and how. -/
structure Options where
  /-- Trace calls and count direct ones. -/
  trace : Bool := true
  /-- Keep the wrappers local to their file. -/
  isStatic : Bool := false
  /-- Write the block that resolves all functions at once. -/
  preresolve : Bool := false
  /-- Write the declarations and macros that wrappers use. -/
  prelude : Bool := true
  deriving DecidableEq, Repr

/-- A wrapper and what it wraps. -/
structure Wrapper where
  signature : Signature
  strategy : Policy.Strategy
  name : String
  text : String
  deriving DecidableEq, Repr

/-- The name of a parameter inside a wrapper. -/
def forwardedName (name : String) : String :=
  name ++ "_"

/-- The parameters that a wrapper declares. -/
def declaredParameters (params : ParamList) : String :=
  if params.isEmpty then "void"
  else
    String.intercalate ", " (params.toList.map fun p => declarator p.type (forwardedName p.name))

/-- The arguments that a wrapper passes on. -/
def passedArguments (params : ParamList) : String :=
  String.intercalate ", " (params.toList.map fun p => forwardedName p.name)

/-- The line that traces a call. -/
def traceLine (config : Config) (s : Signature) : String :=
  "  if (" ++ config.traceTest ++ ") " ++ config.traceFunction ++ "(\"" ++ literalBody s.name ++
    "\\n\");"

/-- The first line of a wrapper. -/
def headLine (config : Config) (options : Options) (s : Signature) : String :=
  (if options.isStatic then "static " else "") ++ s.returnType ++ " " ++
    config.wrapperName s.name ++ "(" ++ declaredParameters s.params ++ ")"

/-- What stands before a call: `return` for a function that returns something. -/
def returnWord (s : Signature) : String :=
  if s.returnsVoid then "" else "return "

/-- The line that calls the function. -/
def callLine (s : Signature) : Policy.Strategy → String
  | .direct => "  " ++ returnWord s ++ s.name ++ "(" ++ passedArguments s.params ++ ");"
  | .resolved =>
    "  " ++ returnWord s ++ "RESOLVED_PROC(" ++ s.procType ++ ")(" ++ passedArguments s.params ++
      ");"

/-- The line that resolves the function. -/
def resolveLine (config : Config) (s : Signature) : String :=
  if s.returnsVoid then "  RESOLVE(" ++ s.procType ++ ", " ++ literal s.name ++ ");"
  else
    "  RESOLVE_RET(" ++ s.procType ++ ", " ++ literal s.name ++ ", " ++ config.failureSentinel ++
      ");"

/-- The lines between the braces of a wrapper. -/
def bodyLines (config : Config) (options : Options) (s : Signature) :
    Policy.Strategy → List String
  | .direct =>
    (if options.trace then
      [traceLine config s, "  " ++ config.directCallCounter ++ "++;", ""]
    else []) ++ [callLine s .direct]
  | .resolved =>
    [resolveLine config s] ++
      (if options.trace then ["", traceLine config s] else []) ++ ["", callLine s .resolved]

/-- The wrapper of a function. -/
def wrapper (config : Config) (options : Options) (s : Signature)
    (strategy : Policy.Strategy) : Wrapper where
  signature := s
  strategy := strategy
  name := config.wrapperName s.name
  text := unlines
    ([headLine config options s, "\x7b"] ++ bodyLines config options s strategy ++ ["\x7d", ""])

/-- Makes the wrapper of a function, and records it. -/
def emitWrapper (config : Config) (options : Options) (s : Signature)
    (strategy : Policy.Strategy) : Log.Recorded Wrapper := do
  let w := wrapper config options s strategy
  Log.Recorded.log .debug ("emitted " ++ w.name ++ " (" ++ strategy.label ++ ")")
  return w

/-- The comment that stands in the place of the wrapper of a function outside of
the dispatch table. -/
def omissionComment (name : String) : String :=
  "/* No wrapper for " ++ name ++ ", not in dispatch table */\n"

/-- The comment at the top of a generated file. -/
def provenanceComment (provenance : String) : String :=
  "/* Automatically generated from " ++ provenance ++ " - DO NOT EDIT */\n\n"

end CallBridge.Generated

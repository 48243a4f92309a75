import CallBridge.Generated.Code

/-!
# The prelude of a generated file

Declarations of the resolving functions and the macros that wrappers use.  Each
macro may be defined beforehand by the embedding program.  Without
pre-resolution every wrapper keeps its own resolution slot; with it the slots are
declared once for the whole file and shared.
-/

namespace CallBridge.Generated

/-- Includes and declarations. -/
def declarationLines : List String := [
  "#include <assert.h>",
  "#include <stddef.h>",
  "#include <stdlib.h>",
  "",
  "extern void *tramp_resolve(void **slot, const char *symbol);",
  "extern void tramp_call_once(int *state, void (*init)(void));",
  "extern int tramp_last_status(void);"]

/-- Macros for slots inside the wrappers. -/
def localSlotLines : List String := [
  "#ifndef RESOLVE_RET",
  "#define RESOLVE_RET(proctype, symbol, retval) \\",
  "    static void *proctype##_slot = NULL; \\",
  "    proctype proc = (proctype)tramp_resolve(&proctype##_slot, symbol); \\",
  "    if (proc == NULL) \x7b \\",
  "        return retval; \\",
  "    \x7d",
  "#endif"]

/-- Macros for slots shared by the whole file. -/
def sharedSlotLines : List String := [
  "#ifndef RESOLVE_DECL",
  "#define RESOLVE_DECL(proctype) static void *proctype##_slot = NULL",
  "#endif",
  "#ifndef PRERESOLVE",
  "#define PRERESOLVE(proctype, symbol) \\",
  "    if (tramp_resolve(&proctype##_slot, symbol) == NULL) \x7b \\",
  "        unresolved++; \\",
  "    \x7d",
  "#endif",
  "#ifndef RESOLVE_RET",
  "#define RESOLVE_RET(proctype, symbol, retval) \\",
  "    proctype proc = (proctype)tramp_resolve(&proctype##_slot, symbol); \\",
  "    if (proc == NULL) \x7b \\",
  "        return retval; \\",
  "    \x7d",
  "#endif"]

/-- Macros that do not depend on where the slots are. -/
def commonMacroLines : List String := [
  "#ifndef RESOLVE",
  "#define RESOLVE(proctype, symbol) RESOLVE_RET(proctype, symbol,)",
  "#endif",
  "#ifndef RESOLVED_PROC",
  "#define RESOLVED_PROC(proctype) proc",
  "#endif"]

/-- The prelude, with or without pre-resolution. -/
def preludeText (preresolve : Bool) : String :=
  unlines
    (declarationLines ++ [""] ++ (if preresolve then sharedSlotLines else localSlotLines) ++
      commonMacroLines ++ [""])

end CallBridge.Generated

import CallBridge.Dispatch.Requirement
import CallBridge.Generated.Wrapper

/-!
# The wiring routine

Generated code fills the dispatch table once: the setup routine runs the
initialiser on its first call and makes the table current on every call.  The
initialiser sets each required slot to its wrapper, in the order of the function
names.  A slot without a wrapper is left unset and warned of; the warning says who
owns the function if it is excluded.

The routine is written slot by slot (`Wiring.fill`), and a slot that is left unset is
noted and recorded where this comes up.
-/

namespace CallBridge.Generated

open Dispatch (Requirement)
open Log (Recorded)

/-- A slot that is left unset. -/
structure MissingSlot where
  name : String
  slot : String
  /-- The function is excluded. -/
  excluded : Bool
  deriving DecidableEq, Repr

/-- Who owns an excluded function. -/
def ownerText (name : String) : String :=
  match Policy.ownerOf? name with
  | some owner => owner.describe
  | none => "another subsystem"

/-- The wiring routine as far as it is written, and the slots left unset so far. -/
structure Wiring where
  code : Code := {}
  missing : List MissingSlot := []
  deriving Repr

namespace Wiring

/-- Begins the routine. -/
def opening (config : Config) : Code :=
  ({} : Code)
    |>.line ("static " ++ config.tableType ++ " *" ++ config.setupFunction ++ "Table = NULL;")
    |>.blank
    |>.line ("static void " ++ config.setupFunction ++ "Init(void)")
    |>.line "\x7b"
    |>.line ("  " ++ config.tableType ++
      " *disp = calloc(_glapi_get_dispatch_table_size(), sizeof(void *));")
    |>.line "  assert(disp);"
    |>.blank

/-- Sets the slot of a required function to its wrapper.  Without a wrapper the slot
is left unset: generated code warns of it, and it is noted and recorded. -/
def fill (wrappers : Table Wrapper) (isExcluded : String → Bool) (w : Wiring)
    (entry : String × String) : Recorded Wiring :=
  let (name, slot) := entry
  match wrappers.get? name with
  | some wrapper => do
    let code := w.code.line ("  SET_" ++ slot ++ "(disp, (void *)" ++ wrapper.name ++ ");")
    return { w with code := code }
  | none => do
    let excluded := isExcluded name
    let code :=
      if excluded then
        w.code.line ("  /* " ++ name ++ " is excluded: owned by " ++ ownerText name ++ " */")
      else w.code
    Recorded.log .warn ("dispatch slot " ++ slot ++ " has no wrapper for " ++ name)
    return {
      code := code.line ("#warning No wrapper for " ++ name ++ " !")
      missing := w.missing ++ [⟨name, slot, excluded⟩] }

/-- Fills the required slots, in the order of the function names. -/
def fillAll (requirement : Requirement) (wrappers : Table Wrapper) (isExcluded : String → Bool)
    (w : Wiring) : Recorded Wiring :=
  requirement.entries.foldlM (fill wrappers isExcluded) w

/-- Ends the routine. -/
def closing (config : Config) (code : Code) : Code :=
  code.blank
    |>.line ("  " ++ config.setupFunction ++ "Table = disp;")
    |>.line "\x7d"
    |>.blank
    |>.line ("void " ++ config.setupFunction ++ "(void)")
    |>.line "\x7b"
    |>.line "  static int once = 0;"
    |>.blank
    |>.line ("  tramp_call_once(&once, " ++ config.setupFunction ++ "Init);")
    |>.line ("  _glapi_set_dispatch(" ++ config.setupFunction ++ "Table);")
    |>.line "\x7d"

end Wiring

/-- Writes the wiring routine. -/
def emitWiring (requirement : Requirement) (wrappers : Table Wrapper)
    (isExcluded : String → Bool) (config : Config) : Recorded Wiring := do
  let filled ← Wiring.fillAll requirement wrappers isExcluded { code := Wiring.opening config }
  return { filled with code := Wiring.closing config filled.code }

/-- The wiring routine. -/
def wiringText (requirement : Requirement) (wrappers : Table Wrapper)
    (isExcluded : String → Bool) (config : Config) : String :=
  (emitWiring requirement wrappers isExcluded config).value.code.text

/-- The slots that are left unset, in the order of the function names. -/
def missingSlots (requirement : Requirement) (wrappers : Table Wrapper)
    (isExcluded : String → Bool) : List MissingSlot :=
  (Wiring.fillAll requirement wrappers isExcluded {}).value.missing

end CallBridge.Generated

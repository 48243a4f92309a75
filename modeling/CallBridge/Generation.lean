import CallBridge.Generated.Prelude
import CallBridge.Generated.Preresolution
import CallBridge.Generated.Wiring
import CallBridge.Source

/-!
# Generating a file

`Generator.run` reads all declarations of a source and writes one file of C code:
the provenance comment, the prelude, the pre-resolution block, the wrappers in
order of first declaration, and the wiring routine.  Options leave out the prelude
and the block; the wiring is written if there are slots to fill.

A name may be declared more than once; the last declaration counts and stands in
the place of the first.  What a user should know but what is no fault is given as
diagnostics, and what happens is recorded where it happens.

* `gather`, `Generator.noteUndeclared`, `Generator.writeEntries` and `Generator.wire`
  are the steps of a run that make records, and `Generator.generate` takes them one
  after the other;
* `collect`, `Generator.decisions` and `Generator.wrappers` are the three tables of a
  run.
-/

namespace CallBridge

open Generated
open Dispatch (Requirement)
open Log (Recorded)
open Policy (Decision Omission Strategy)

/-- Something that a user should know about a run. -/
inductive Diagnostic where
  /-- A required slot has no wrapper. -/
  | missingSlot (slot : MissingSlot)
  /-- A required function is not declared by the source. -/
  | undeclared (name : String)
  deriving DecidableEq, Repr

/-- A diagnostic as users see it. -/
def Diagnostic.text : Diagnostic → String
  | .missingSlot ⟨name, slot, true⟩ =>
    "dispatch slot " ++ slot ++ ": " ++ name ++ " is excluded, slot left unset"
  | .missingSlot ⟨name, slot, false⟩ =>
    "dispatch slot " ++ slot ++ ": no wrapper for " ++ name ++ ", slot left unset"
  | .undeclared name =>
    name ++ " is required by the dispatch table but not declared by the source"

/-- Enters a declaration under its name, and records it if the name is known. -/
def register (table : Table Declaration) (d : Declaration) : Recorded (Table Declaration) := do
  if table.has d.name then
    Recorded.log .debug ("duplicate declaration of " ++ d.name ++ ", later one wins")
  return table.put d.name d

/-- Enters declarations, one after the other. -/
def gather (declarations : List Declaration) : Recorded (Table Declaration) :=
  declarations.foldlM register []

/-- Declarations by name, in order of first declaration.  The last declaration of a
name counts. -/
def collect (declarations : List Declaration) : Table Declaration :=
  (gather declarations).value

/-- What a run generates. -/
structure Product where
  text : String
  wrappers : Table Wrapper
  diagnostics : List Diagnostic
  deriving Repr

/-- What a run yields. -/
structure Output extends Product where
  log : List Log.Record
  deriving Repr

/-- A configuration, options and, if a dispatch table is to be filled, its slots. -/
structure Generator where
  config : Config := {}
  options : Options := {}
  requirement : Option Requirement := none
  deriving Repr

/-- The part of a file that has been written, and the wrappers in it. -/
structure Draft where
  code : Code := {}
  wrappers : Table Wrapper := []
  deriving Repr

namespace Generator

/-- The rules by which functions are retained: those of the configuration, limited
to the required functions if a dispatch table is to be filled. -/
def rules (g : Generator) : Policy.Rules :=
  g.config.rules (g.requirement.map Requirement.names)

/-- The decisions about declared functions. -/
def decisions (g : Generator) (declared : Table Declaration) : Table Decision :=
  g.rules.classify (declared.map Prod.snd)

/-! ### Required functions that are not declared -/

/-- The required functions that are not declared, in order of their names. -/
def undeclared (g : Generator) (declared : Table Declaration) : List String :=
  match g.requirement with
  | none => []
  | some requirement => requirement.names.filter fun name => !declared.has name

/-- Notes and records the required functions that are not declared. -/
def noteUndeclared (g : Generator) (provenance : String) (declared : Table Declaration) :
    Recorded (List Diagnostic) :=
  (g.undeclared declared).mapM fun name => do
    Recorded.log .warn (name ++ " is in the dispatch table but not in " ++ provenance)
    return .undeclared name

/-! ### The file -/

/-- The signatures of the retained functions, in order. -/
def retainedSignatures (g : Generator) (declared : Table Declaration) : List Signature :=
  (Policy.retained (g.decisions declared)).filterMap fun entry =>
    (declared.get? entry.1).map Declaration.signature

/-- The text before the wrappers. -/
def opening (g : Generator) (provenance : String) (declared : Table Declaration) : String :=
  provenanceComment provenance ++
    (if g.options.prelude then preludeText g.options.preresolve else "") ++
    (if g.options.preresolve then
      preresolutionText (g.retainedSignatures declared) g.config.apiPrefix
    else "")

/-- Writes what stands in the file for one declared function: its wrapper, a comment
if only the dispatch table leaves it out, or nothing. -/
def writeEntry (g : Generator) (decisions : Table Decision) (draft : Draft)
    (entry : String × Declaration) : Recorded Draft :=
  let (name, d) := entry
  match decisions.get? name with
  | none => return draft
  | some decision =>
    match decision.omission with
    | none => do
      let w ← emitWrapper g.config g.options d.signature decision.strategy
      return { code := draft.code.append w.text, wrappers := draft.wrappers.put name w }
    | some .unlisted => return { draft with code := draft.code.append (omissionComment name) }
    | some .excluded => return draft

/-- Writes what stands in the file for the declared functions, in order. -/
def writeEntries (g : Generator) (declared : Table Declaration) : Recorded Draft :=
  declared.foldlM (g.writeEntry (g.decisions declared)) {}

/-- The wrappers of declared functions, in order. -/
def wrappers (g : Generator) (declared : Table Declaration) : Table Wrapper :=
  (g.writeEntries declared).value.wrappers

/-- The wrappers and the comments in the place of omitted ones. -/
def body (g : Generator) (declared : Table Declaration) : String :=
  (g.writeEntries declared).value.code.text

/-- Writes the wiring routine, if a dispatch table is to be filled. -/
def wire (g : Generator) (wrappers : Table Wrapper) : Recorded Wiring :=
  match g.requirement with
  | none => return {}
  | some requirement => emitWiring requirement wrappers g.rules.isExcluded g.config

/-- The wiring routine, if a dispatch table is to be filled. -/
def wiring (g : Generator) (wrappers : Table Wrapper) : String :=
  (g.wire wrappers).value.code.text

/-- The required slots that are left unset, in the order of the function names. -/
def missing (g : Generator) (wrappers : Table Wrapper) : List MissingSlot :=
  (g.wire wrappers).value.missing

/-! ### A run -/

/-- Generates a file from the declarations of a source. -/
def generate (g : Generator) (source : Source) : Recorded Product := do
  let declared ← gather source.pending
  let undeclared ← g.noteUndeclared source.provenance declared
  let draft ← g.writeEntries declared
  let wiring ← g.wire draft.wrappers
  let diagnostics := undeclared ++ wiring.missing.map Diagnostic.missingSlot
  Recorded.log .info (toString declared.length ++ " declarations, " ++
    toString draft.wrappers.length ++ " wrappers, " ++ toString diagnostics.length ++
    " diagnostics")
  return {
    text := g.opening source.provenance declared ++ draft.code.text ++ wiring.code.text
    wrappers := draft.wrappers
    diagnostics := diagnostics }

/-- Reads all declarations of a source and generates a file.  Gives the source as it
is left as well. -/
def run (g : Generator) (source : Source) : Output × Source :=
  let generated := g.generate source
  ({ toProduct := generated.value, log := generated.records }, { source with pending := [] })

end Generator

end CallBridge

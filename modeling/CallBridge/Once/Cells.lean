import CallBridge.Once.Cell

/-!
# Cells by name

Cells start out incomplete.  A call names a cell and an initialiser; `runs` counts
the initialisers that were started for it.

* `Cells.call` is a call whose initialiser may unwind, or may call another cell;
* `Cells.callChecked` is a call for which the cell or the initialiser may be missing:
  without an initialiser nothing happens, and without a cell it runs every time;
* `Cells.callTogether` is a call from many threads at once.
-/

namespace CallBridge.Once

/-- Cells by name. -/
structure Cells where
  cell : String → Cell := fun _ => incomplete

/-- What an initialiser does. -/
inductive Initialiser where
  | returns
  | unwinds
  /-- It calls another cell with an initialiser that returns. -/
  | calls (other : String)
  deriving DecidableEq, Repr

/-- How an initialiser ends. -/
def Initialiser.ending : Initialiser → Ending
  | returns => .returns
  | unwinds => .unwinds
  | calls _ => .returns

/-- What a call says, and how many initialisers were started.  A call that unwinds
says nothing. -/
structure Result where
  ran : Option Bool
  runs : Nat
  deriving DecidableEq, Repr

/-- How many of the callers have started their initialisers. -/
def startedOf (callers : List Caller) : Nat :=
  (callers.filter Caller.hasStarted).length

namespace Cells

/-- Sets a cell. -/
def set (cs : Cells) (name : String) (value : Cell) : Cells :=
  ⟨fun n => if n = name then value else cs.cell n⟩

/-- One step of a caller of a cell. -/
def step (cs : Cells) (name : String) (caller : Caller) : Cells × Caller :=
  let next := caller.step (cs.cell name)
  (cs.set name next.1, next.2)

/-- All steps of a caller of a cell that does not have to wait. -/
def finish (cs : Cells) (name : String) (caller : Caller) : Cells × Caller :=
  let last := caller.finish (cs.cell name)
  (cs.set name last.1, last.2)

/-- Calls a cell with an initialiser.  What the initialiser does comes between the
step that starts it and the step that ends it. -/
def call (cs : Cells) (name : String) (initialiser : Initialiser) : Result × Cells :=
  let begun := cs.step name { ending := initialiser.ending }
  let within : Cells × List Caller :=
    match initialiser, begun.2.hasStarted with
    | .calls other, true =>
      let inner := begun.1.finish other {}
      (inner.1, [inner.2])
    | _, _ => (begun.1, [])
  let ended := within.1.finish name begun.2
  (⟨ended.2.answer?, startedOf (ended.2 :: within.2)⟩, ended.1)

/-- Calls a cell with an initialiser that returns, if both are there. -/
def callChecked (cs : Cells) (name : Option String) (hasInitialiser : Bool) : Nat × Cells :=
  match hasInitialiser, name with
  | false, _ => (0, cs)
  | true, none => (1, cs)
  | true, some name =>
    let done := cs.finish name {}
    (startedOf [done.2], done.1)

/-- Calls a cell from `count` threads at once, turn by turn, with initialisers that
return. -/
def callTogether (cs : Cells) (name : String) (count : Nat) : Nat × Cells :=
  let callers : List Caller := List.replicate count {}
  let done := (Crowd.mk (cs.cell name) callers).run Caller.step
    (Crowd.rounds count Caller.stepLimit)
  (startedOf done.agents, cs.set name done.world)

end Cells

end CallBridge.Once

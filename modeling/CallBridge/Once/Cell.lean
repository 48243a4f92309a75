import CallBridge.Interleaving

/-!
# Cells that are initialised once

A cell is incomplete, running or complete.  A caller that finds it incomplete sets
it to running and runs its initialiser; when that returns, the cell is complete, and
when it unwinds, the cell is incomplete again, so that a later caller can try.  A
caller that finds the cell complete has nothing to do, and one that finds it running
tries again.

`Caller.step` takes one of these steps at a time, because other callers may come in
between any two of them.  `Crowd.run Caller.step` runs any number of callers in the
order of a schedule.
-/

namespace CallBridge.Once

/-- What a cell holds. -/
abbrev Cell := Nat

/-- The cell of an initialisation that has not been done. -/
def incomplete : Cell :=
  0

/-- The cell of an initialisation that is being done. -/
def running : Cell :=
  1

/-- The cell of an initialisation that has been done. -/
def complete : Cell :=
  2

/-- Whether an initialisation has been done. -/
def isComplete (cell : Cell) : Bool :=
  cell == complete

/-- How an initialiser ends. -/
inductive Ending where
  | returns
  | unwinds
  deriving DecidableEq, Repr

/-- What a caller does next. -/
inductive Phase where
  /-- It looks at the cell. -/
  | trying
  /-- Its initialiser runs. -/
  | initialising
  /-- Its initialiser has ended, and it closes the cell. -/
  | closing
  /-- It has run its initialiser. -/
  | ran
  /-- Its initialiser has unwound, and so has the call. -/
  | unwound
  /-- It has found the cell complete. -/
  | passed
  deriving DecidableEq, Repr

/-- A caller, how its initialiser ends if it runs, and how far it has come. -/
structure Caller where
  ending : Ending := .returns
  phase : Phase := .trying
  deriving DecidableEq, Repr

namespace Caller

/-- Takes one step. -/
def step (cell : Cell) (c : Caller) : Cell × Caller :=
  match c.phase with
  | .trying =>
    if cell = incomplete then (running, { c with phase := .initialising })
    else if cell = complete then (cell, { c with phase := .passed })
    else (cell, c)
  | .initialising => (cell, { c with phase := .closing })
  | .closing =>
    match c.ending with
    | .returns => (complete, { c with phase := .ran })
    | .unwinds => (incomplete, { c with phase := .unwound })
  | .ran => (cell, c)
  | .unwound => (cell, c)
  | .passed => (cell, c)

/-- Takes a number of steps in one go. -/
def steps (cell : Cell) (c : Caller) : Nat → Cell × Caller
  | 0 => (cell, c)
  | n + 1 => steps (step cell c).1 (step cell c).2 n

/-- The number of steps of a caller that does not have to wait. -/
def stepLimit : Nat :=
  3

/-- Takes all steps of a caller that does not have to wait. -/
def finish (cell : Cell) (c : Caller) : Cell × Caller :=
  steps cell c stepLimit

/-- Whether the initialiser of a caller has been started. -/
def hasStarted (c : Caller) : Bool :=
  match c.phase with
  | .trying => false
  | .passed => false
  | .initialising => true
  | .closing => true
  | .ran => true
  | .unwound => true

/-- Whether a call said that it ran its initialiser.  A call that unwinds says
nothing. -/
def answer? (c : Caller) : Option Bool :=
  match c.phase with
  | .ran => some true
  | .passed => some false
  | _ => none

/-- A caller of a complete cell passes and leaves it as it is. -/
theorem finish_complete (ending : Ending) :
    finish complete { ending := ending } = (complete, { ending := ending, phase := .passed }) :=
  rfl

/-- A caller of an incomplete cell whose initialiser returns completes it. -/
theorem finish_incomplete_returns :
    finish incomplete { ending := .returns } = (complete, { ending := .returns, phase := .ran }) :=
  rfl

/-- A caller of an incomplete cell whose initialiser unwinds leaves it incomplete. -/
theorem finish_incomplete_unwinds :
    finish incomplete { ending := .unwinds } =
      (incomplete, { ending := .unwinds, phase := .unwound }) :=
  rfl

end Caller

end CallBridge.Once

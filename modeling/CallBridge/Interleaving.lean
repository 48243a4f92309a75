/-!
# Interleaving

Agents share one world and act in turns.  In a turn one agent takes one step, which
changes the world and the agent itself; a schedule says whose turn it is.  Every
order in which threads can run is a schedule, so what holds after every schedule
holds however the threads run.

`Crowd.run_induction` says that what every step keeps holds after every schedule.
-/

namespace CallBridge

/-- A world, and the agents that act on it. -/
structure Crowd (World Agent : Type) where
  world : World
  agents : List Agent

namespace Crowd

variable {World Agent : Type}

/-- The turn of one agent.  If there is no such agent, nothing happens. -/
def turn (step : World → Agent → World × Agent) (c : Crowd World Agent) (i : Nat) :
    Crowd World Agent :=
  match c.agents[i]? with
  | none => c
  | some agent => ⟨(step c.world agent).1, c.agents.set i (step c.world agent).2⟩

/-- The turns of a schedule, one after the other. -/
def run (step : World → Agent → World × Agent) (c : Crowd World Agent) (schedule : List Nat) :
    Crowd World Agent :=
  schedule.foldl (turn step) c

/-- The schedule in which all of `count` agents have their turn, `times` times. -/
def rounds (count : Nat) : Nat → List Nat
  | 0 => []
  | times + 1 => List.range count ++ rounds count times

@[simp]
theorem run_cons (step : World → Agent → World × Agent) (c : Crowd World Agent) (i : Nat)
    (schedule : List Nat) :
    c.run step (i :: schedule) = (c.turn step i).run step schedule :=
  rfl

/-- Two schedules run one after the other are one schedule. -/
theorem run_append (step : World → Agent → World × Agent) (c : Crowd World Agent)
    (first second : List Nat) :
    c.run step (first ++ second) = (c.run step first).run step second :=
  List.foldl_append

/-- What every turn keeps holds after every schedule. -/
theorem run_induction (step : World → Agent → World × Agent)
    {holds : Crowd World Agent → Prop}
    (keep : ∀ c i, holds c → holds (c.turn step i))
    (schedule : List Nat) {c : Crowd World Agent} (start : holds c) :
    holds (c.run step schedule) := by
  induction schedule generalizing c with
  | nil => exact start
  | cons i schedule ih => exact ih (keep c i start)

end Crowd

end CallBridge

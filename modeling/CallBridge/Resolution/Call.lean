import CallBridge.Interleaving
import CallBridge.Resolution.Slot

/-!
# Calls

A call resolves one slot.  It reads the slot; if that is null it runs a lookup and
tries to publish what the lookup found, and adopts what is there if another call was
faster.  Then it counts, sets the status of its thread and answers.

`Call.step` takes one of these steps at a time, because other calls may come in
between any two of them, also while the lookup runs.  A lookup that itself resolves
slots is no different: its calls take their steps while the outer call stays in
`Phase.lookingUp`.

* `Call.finish` takes all remaining steps in one go;
* `Call.isFinished_finish`: then the call is finished;
* `Crowd.run Call.step` runs any number of calls in the order of a schedule.
-/

namespace CallBridge.Resolution

/-- What a call does next. -/
inductive Phase where
  /-- It reads the slot. -/
  | reading
  /-- It waits for its lookup. -/
  | lookingUp
  /-- It publishes a value unless the slot is settled by now. -/
  | publishing (value : Address)
  /-- It has settled the slot without an address and counts that. -/
  | countingUnresolved
  /-- It counts itself: it is going to be given an address. -/
  | countingCall (value : Address)
  /-- It sets the status of its thread. -/
  | reporting (value : Address)
  /-- It has seen the slot settled with a value. -/
  | finished (value : Address)
  deriving DecidableEq, Repr

/-- A call on a slot, what its lookup finds if it runs, and how far it has come. -/
structure Call where
  thread : Thread
  slot : String
  found : Address
  phase : Phase := .reading
  /-- Whether the lookup has run. -/
  lookedUp : Bool := false
  deriving DecidableEq, Repr

namespace Call

/-- What follows when the slot has been seen settled: a call that is given an address
is counted first. -/
def settled (value : Address) : Phase :=
  if value = unresolvable then .reporting value else .countingCall value

/-- What a lookup that found `found` publishes. -/
def published (found : Address) : Address :=
  if found = 0 then unresolvable else found

/-- Goes over to another phase. -/
def enter (c : Call) (phase : Phase) : Call :=
  { c with phase := phase }

/-- Takes one step. -/
def step (m : Memory) (c : Call) : Memory × Call :=
  match c.phase with
  | .reading =>
    if m.slots c.slot = 0 then (m, c.enter .lookingUp)
    else (m, c.enter (settled (m.slots c.slot)))
  | .lookingUp => (m, { c with phase := .publishing (published c.found), lookedUp := true })
  | .publishing value =>
    if m.slots c.slot = 0 then
      (m.setSlot c.slot value,
        c.enter (if value = unresolvable then .countingUnresolved else .countingCall value))
    else (m, c.enter (settled (m.slots c.slot)))
  | .countingUnresolved => (m.countUnresolved, c.enter (.reporting unresolvable))
  | .countingCall value => (m.countCall, c.enter (.reporting value))
  | .reporting value =>
    (m.setStatus c.thread (if value = unresolvable then .unresolved else .ok),
      c.enter (.finished value))
  | .finished _ => (m, c)

/-- The address that a settled value stands for. -/
def addressOf (value : Address) : Option Address :=
  if value = unresolvable then none else some value

/-- The answer of a finished call: an address, or none if there is none. -/
def answer? (c : Call) : Option (Option Address) :=
  match c.phase with
  | .finished value => some (addressOf value)
  | _ => none

/-- Whether a call is finished. -/
def isFinished (c : Call) : Bool :=
  match c.phase with
  | .finished _ => true
  | _ => false

/-- Takes a number of steps in one go. -/
def steps (m : Memory) (c : Call) : Nat → Memory × Call
  | 0 => (m, c)
  | n + 1 => steps (step m c).1 (step m c).2 n

/-- The number of steps that no call exceeds. -/
def stepLimit : Nat :=
  5

/-- Takes all remaining steps in one go. -/
def finish (m : Memory) (c : Call) : Memory × Call :=
  steps m c stepLimit

/-- The steps that a call in a phase has left at most. -/
def stepsLeft : Phase → Nat
  | .reading => 5
  | .lookingUp => 4
  | .publishing _ => 3
  | .countingUnresolved => 2
  | .countingCall _ => 2
  | .reporting _ => 1
  | .finished _ => 0

theorem stepsLeft_settled (value : Address) : stepsLeft (settled value) ≤ 2 := by
  unfold settled
  split <;> simp [stepsLeft]

/-- Every step leaves fewer steps. -/
theorem stepsLeft_step (m : Memory) (c : Call) :
    stepsLeft (step m c).2.phase ≤ stepsLeft c.phase - 1 := by
  obtain ⟨thread, slot, found, phase, lookedUp⟩ := c
  have two := stepsLeft_settled (m.slots slot)
  cases phase with
  | reading =>
    by_cases h : m.slots slot = 0
    · simp [step, enter, stepsLeft, h]
    · simp only [step, enter, h, if_false]
      change _ ≤ 4
      omega
  | publishing value =>
    by_cases h : m.slots slot = 0
    · simp only [step, enter, h, if_true]
      by_cases hv : value = unresolvable <;> simp [hv, stepsLeft]
    · simp only [step, enter, h, if_false]
      change _ ≤ 2
      omega
  | _ => simp [step, enter, stepsLeft]

theorem stepsLeft_steps (m : Memory) (c : Call) (n : Nat) :
    stepsLeft (steps m c n).2.phase ≤ stepsLeft c.phase - n := by
  induction n generalizing m c with
  | zero => simp [steps]
  | succ n ih =>
    have first := stepsLeft_step m c
    have rest := ih (step m c).1 (step m c).2
    simp only [steps]
    omega

/-- A call that has no steps left is finished. -/
theorem isFinished_of_stepsLeft {c : Call} (h : stepsLeft c.phase = 0) : c.isFinished = true := by
  obtain ⟨thread, slot, found, phase, lookedUp⟩ := c
  cases phase <;> simp_all [stepsLeft, isFinished]

/-- After all remaining steps a call is finished. -/
theorem isFinished_finish (m : Memory) (c : Call) : (finish m c).2.isFinished = true := by
  have left := stepsLeft_steps m c stepLimit
  have most : stepsLeft c.phase ≤ 5 := by
    cases c.phase <;> simp [stepsLeft]
  apply isFinished_of_stepsLeft
  simp only [finish, stepLimit] at *
  omega

end Call

end CallBridge.Resolution

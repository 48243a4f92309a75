import CallBridge.Resolution.Session

/-!
# Tasks

What threads ask of the runtime are errands: to install a resolver or remove it, to
resolve a slot with the installed resolver, to resolve a slot with a lookup of one's own.
A task is an errand on its way.  A task that needs the resolver looks first whether the
slot and the symbol are there and whether a resolver is installed.  If one of them is
missing it is refused; if not it goes on as a call.

`Task.step` takes one step at a time, so that any number of tasks can be interleaved.  A
session does an errand in one go:

* `Task.steps_ask`: then it does what `Session.resolveChecked` does;
* `Task.steps_own`: then it does what `Session.resolveWith` does.
-/

namespace CallBridge.Resolution

/-- How far an errand has come. -/
inductive Task where
  /-- A resolver is to be installed, or the installed one to be removed. -/
  | install (resolver : Option Resolver)
  | installed
  /-- A slot is to be resolved with the installed resolver. -/
  | ask (thread : Thread) (slot symbol : Option String)
  /-- The thread is to be told why its slot is not resolved. -/
  | refusing (thread : Thread) (status : Status)
  | refused
  | calling (symbol : String) (call : Call)

/-- What a thread asks of the runtime. -/
inductive Errand where
  | install (resolver : Option Resolver)
  | resolve (thread : Thread) (slot symbol : Option String)
  | resolveWith (thread : Thread) (slot symbol : String) (found : Address)

namespace Task

/-- The task of resolving a slot with a lookup of one's own, which finds `found`. -/
def own (thread : Thread) (slot symbol : String) (found : Address) : Task :=
  .calling (symbolOf symbol) { thread := thread, slot := slot, found := found }

/-- A look at the resolver.  The slot and the symbol are there. -/
def consult (s : Session) (thread : Thread) (slot symbol : String) : Task :=
  match s.resolver with
  | none => .refusing thread .noResolver
  | some resolver => own thread slot symbol (resolver (symbolOf symbol))

/-- Takes one step. -/
def step (s : Session) (t : Task) : Session × Task :=
  match t with
  | .install resolver => (s.install resolver, .installed)
  | .installed => (s, .installed)
  | .ask thread (some slot) (some symbol) => (s, consult s thread slot symbol)
  | .ask thread _ _ => (s, .refusing thread .nullArgument)
  | .refusing thread status => (s.setStatus thread status, .refused)
  | .refused => (s, .refused)
  | .calling symbol call =>
    ({ s with memory := (call.step s.memory).1 }, .calling symbol (call.step s.memory).2)

/-- Takes a number of steps in one go. -/
def steps (s : Session) (t : Task) : Nat → Session × Task
  | 0 => (s, t)
  | n + 1 => steps (step s t).1 (step s t).2 n

/-- The symbols that have been looked up for a task so far. -/
def lookups : Task → List String
  | .calling symbol call => (Result.ofCall symbol call).lookups
  | _ => []

/-- What a task gives when it has returned. -/
def result? : Task → Option Result
  | .refused => some {}
  | .calling symbol call => if call.isFinished then some (.ofCall symbol call) else none
  | _ => none

/-- The slot that a task has gone on to as a call. -/
def slot? : Task → Option String
  | .calling _ call => some call.slot
  | _ => none

end Task

/-- The task of an errand that has not been begun. -/
def Errand.task : Errand → Task
  | install resolver => .install resolver
  | resolve thread slot symbol => .ask thread slot symbol
  | resolveWith thread slot symbol found => .own thread slot symbol found

namespace Task

theorem steps_calling (s : Session) (symbol : String) (call : Call) (n : Nat) :
    steps s (.calling symbol call) n =
      ({ s with memory := (call.steps s.memory n).1 },
        .calling symbol (call.steps s.memory n).2) := by
  induction n generalizing s call with
  | zero => rfl
  | succ n ih => exact ih { s with memory := (call.step s.memory).1 } (call.step s.memory).2

/-- All steps of a call with a lookup of its own, in one go. -/
theorem steps_own (s : Session) (thread : Thread) (slot symbol : String) (found : Address) :
    (steps s (own thread slot symbol found) Call.stepLimit).1 =
        (s.resolveWith thread slot symbol found).2 ∧
      (steps s (own thread slot symbol found) Call.stepLimit).2.result? =
        some (s.resolveWith thread slot symbol found).1 := by
  rw [own, steps_calling]
  exact ⟨rfl, if_pos (Call.isFinished_finish s.memory _)⟩

/-- All steps of a task through the resolver, in one go. -/
theorem steps_ask (s : Session) (thread : Thread) (slot symbol : Option String) :
    (steps s (.ask thread slot symbol) (Call.stepLimit + 1)).1 =
        (s.resolveChecked thread slot symbol).2 ∧
      (steps s (.ask thread slot symbol) (Call.stepLimit + 1)).2.result? =
        some (s.resolveChecked thread slot symbol).1 := by
  cases slot with
  | none => exact ⟨rfl, rfl⟩
  | some slot =>
    cases symbol with
    | none => exact ⟨rfl, rfl⟩
    | some symbol =>
      rw [steps, step, consult, Session.resolveChecked, Session.resolve]
      cases s.resolver with
      | none => exact ⟨rfl, rfl⟩
      | some resolver => exact steps_own s thread slot symbol (resolver (symbolOf symbol))

end Task

end CallBridge.Resolution

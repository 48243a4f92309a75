import CallBridge.Resolution.Call

/-!
# Sessions

A session is what a program sees of resolution: the slots, the counters, the
statuses of its threads, and the installed resolver, if there is one.

* `Session.resolveWith` resolves a slot with a lookup of its own;
* `Session.resolve` resolves it with the installed resolver, and without one fails
  before the slot is looked at;
* `Session.resolveChecked` is the same for a slot and a symbol that may be missing;
* `Session.resolveAgainst` has a rival that publishes first;
* `Session.resolveTogether` lets many threads resolve one slot at once.

The null address stands for a call that is given none.
-/

namespace CallBridge.Resolution

/-- A resolver finds the address of a symbol, or null. -/
abbrev Resolver := String → Address

/-- The symbol that a text states: it ends at the first NUL. -/
def symbolOf (text : String) : String :=
  String.ofList (text.toList.takeWhile (· != '\x00'))

/-- What a call gives, and the symbols that were looked up for it. -/
structure Result where
  address : Address := 0
  lookups : List String := []
  deriving DecidableEq, Repr

/-- What a call for a symbol gives when it is finished. -/
def Result.ofCall (symbol : String) (call : Call) : Result where
  address := (call.answer?.getD none).getD 0
  lookups := if call.lookedUp then [symbol] else []

/-- What a program sees of resolution. -/
structure Session where
  memory : Memory := {}
  resolver : Option Resolver := none
  /-- How many threads have been started beside the main one. -/
  started : Nat := 0

namespace Session

/-- The main thread. -/
def mainThread : Thread :=
  0

/-- Starts a thread. -/
def start (s : Session) : Thread × Session :=
  (s.started + 1, { s with started := s.started + 1 })

/-- The status of a thread. -/
def status (s : Session) (thread : Thread) : Status :=
  s.memory.statuses thread

/-- Sets the status of a thread. -/
def setStatus (s : Session) (thread : Thread) (status : Status) : Session :=
  { s with memory := s.memory.setStatus thread status }

/-- Installs a resolver, or removes it. -/
def install (s : Session) (resolver : Option Resolver) : Session :=
  { s with resolver := resolver }

/-- Takes all remaining steps of a call for a symbol. -/
def finish (s : Session) (symbol : String) (call : Call) : Result × Session :=
  (.ofCall symbol (call.finish s.memory).2, { s with memory := (call.finish s.memory).1 })

/-- Resolves a slot with a lookup that finds `found`. -/
def resolveWith (s : Session) (thread : Thread) (slot symbol : String) (found : Address) :
    Result × Session :=
  s.finish (symbolOf symbol) { thread := thread, slot := slot, found := found }

/-- Resolves a slot with the installed resolver.  Without one the call fails, and the
slot stays as it is. -/
def resolve (s : Session) (thread : Thread) (slot symbol : String) : Result × Session :=
  match s.resolver with
  | none => ({}, s.setStatus thread .noResolver)
  | some resolver => s.resolveWith thread slot symbol (resolver (symbolOf symbol))

/-- Resolves a slot with the installed resolver, if both the slot and the symbol are
there. -/
def resolveChecked (s : Session) (thread : Thread) (slot symbol : Option String) :
    Result × Session :=
  match slot, symbol with
  | some slot, some symbol => s.resolve thread slot symbol
  | _, _ => ({}, s.setStatus thread .nullArgument)

/-- Resolves a slot with a lookup that finds `found`, but first resolves the slot with
one that finds `rival`.  Gives the result of the rival as well, if the lookup runs. -/
def resolveAgainst (s : Session) (thread : Thread) (slot symbol : String)
    (found rival : Address) : Result × Option Result × Session :=
  let call : Call := { thread := thread, slot := slot, found := found }
  let begun := call.step s.memory
  let s := { s with memory := begun.1 }
  if begun.2.phase = .lookingUp then
    let inner := s.resolveWith thread slot symbol rival
    let outer := inner.2.finish (symbolOf symbol) begun.2
    (outer.1, some inner.1, outer.2)
  else
    let outer := s.finish (symbolOf symbol) begun.2
    (outer.1, none, outer.2)

/-- Lets `count` new threads resolve a slot at once, turn by turn, with the installed
resolver.  Gives the address and the status of each. -/
def resolveTogether (s : Session) (slot symbol : String) (count : Nat) :
    List (Address × Status) × Session :=
  let threads := (List.range count).map fun i => s.started + 1 + i
  let s := { s with started := s.started + count }
  match s.resolver with
  | none =>
    let s := threads.foldl (fun s thread => s.setStatus thread .noResolver) s
    (threads.map fun thread => (0, s.status thread), s)
  | some resolver =>
    let found := resolver (symbolOf symbol)
    let calls := threads.map fun thread =>
      ({ thread := thread, slot := slot, found := found } : Call)
    let done := (Crowd.mk s.memory calls).run Call.step (Crowd.rounds count Call.stepLimit)
    let s := { s with memory := done.world }
    (done.agents.map fun call =>
      ((Result.ofCall (symbolOf symbol) call).address, s.status call.thread), s)

/-- Without a resolver nothing but the status of the thread changes, so the slot can
still be resolved later. -/
theorem resolve_of_no_resolver {s : Session} (h : s.resolver = none) (thread : Thread)
    (slot symbol : String) :
    s.resolve thread slot symbol = ({}, s.setStatus thread .noResolver) := by
  simp [resolve, h]

end Session

end CallBridge.Resolution

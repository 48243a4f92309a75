/-!
# Slots

The address of a function that is found at run time is kept in a slot.  A slot is
null until the function has been looked up; then it holds the address, or
`unresolvable` if nothing was found.  A slot that is not null is settled.

Threads share the slots and two counters.  Each thread has a status of its own that
tells how its last call went.
-/

namespace CallBridge.Resolution

/-- An address.  Zero is the null address. -/
abbrev Address := UInt64

/-- The mark of a function that cannot be found: the address with all bits set. -/
def unresolvable : Address :=
  0xFFFFFFFFFFFFFFFF

/-- How the last call of a thread went. -/
inductive Status where
  | ok
  /-- The slot or the symbol was missing. -/
  | nullArgument
  /-- No resolver was installed. -/
  | noResolver
  /-- The function cannot be found. -/
  | unresolved
  deriving DecidableEq, Repr

namespace Status

/-- The number of a status. -/
def code : Status → Nat
  | ok => 0
  | nullArgument => 1
  | noResolver => 2
  | unresolved => 3

/-- The status with a number. -/
def ofCode? : Nat → Option Status
  | 0 => some ok
  | 1 => some nullArgument
  | 2 => some noResolver
  | 3 => some unresolved
  | _ => none

theorem ofCode?_code (status : Status) : ofCode? status.code = some status := by
  cases status <;> rfl

end Status

/-- A thread, by number. -/
abbrev Thread := Nat

/-- What threads share, and the status of each.  The counters wrap around. -/
structure Memory where
  slots : String → Address := fun _ => 0
  /-- How many calls have been given an address. -/
  indirectCalls : UInt64 := 0
  /-- How many slots have been settled without an address. -/
  unresolvedSlots : UInt64 := 0
  statuses : Thread → Status := fun _ => .ok

namespace Memory

/-- Whether a slot is settled, with an address or without one. -/
def isSettled (m : Memory) (slot : String) : Bool :=
  m.slots slot != 0

/-- Puts a value into a slot. -/
def setSlot (m : Memory) (slot : String) (value : Address) : Memory :=
  { m with slots := fun s => if s = slot then value else m.slots s }

/-- Sets the status of a thread. -/
def setStatus (m : Memory) (thread : Thread) (status : Status) : Memory :=
  { m with statuses := fun t => if t = thread then status else m.statuses t }

/-- Counts a call that is given an address. -/
def countCall (m : Memory) : Memory :=
  { m with indirectCalls := m.indirectCalls + 1 }

/-- Counts a slot that is settled without an address. -/
def countUnresolved (m : Memory) : Memory :=
  { m with unresolvedSlots := m.unresolvedSlots + 1 }

@[simp]
theorem slots_setSlot (m : Memory) (slot : String) (value : Address) :
    (m.setSlot slot value).slots slot = value := by
  simp [setSlot]

theorem slots_setSlot_of_ne (m : Memory) {slot other : String} (value : Address)
    (h : other ≠ slot) : (m.setSlot slot value).slots other = m.slots other := by
  simp [setSlot, h]

@[simp]
theorem statuses_setStatus (m : Memory) (thread : Thread) (status : Status) :
    (m.setStatus thread status).statuses thread = status := by
  simp [setStatus]

theorem statuses_setStatus_of_ne (m : Memory) {thread other : Thread} (status : Status)
    (h : other ≠ thread) : (m.setStatus thread status).statuses other = m.statuses other := by
  simp [setStatus, h]

end Memory

end CallBridge.Resolution

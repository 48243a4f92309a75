import CallBridge.Proofs.Resolution.Cache

/-!
# The status of a thread tells how its call went

A call through the resolver is refused if its slot or its symbol is missing, or if it finds no
resolver installed.  If it is not refused it settles its slot, with an address or without
one.  The last thing that it does is to set the status of its thread, so at the moment at which
it returns the status says which of these has happened.

* `refusal?` and `verdict` say what the status has to be, and `Truthful` that it is so;
* `Leaves` is what a call may not touch: the statuses of other threads and the slots that are
  not its own;
* `Underway` is what the task of a call can be from its first turn on, and `Underway.step` that
  it stays so;
* `Underway.leaves_step`, `Underway.truthful_step` and `Underway.refused_step` say what one turn
  of a call does;
* `truthful_of_run` says it of every call in every state that a run can reach, for calls in one
  go as well as for calls that others interrupt.
-/

namespace CallBridge.Resolution

/-- Why a call is refused before its slot is looked at, if it is. -/
def refusal? (resolver : Option Resolver) (slot symbol : Option String) : Option Status :=
  if slot.isNone || symbol.isNone then some .nullArgument
  else if resolver.isNone then some .noResolver
  else none

/-- What the status of a thread has to be after a call that has given an address.  `resolver` is
what the call has found installed. -/
def verdict (resolver : Option Resolver) (slot symbol : Option String) (address : Address) :
    Status :=
  (refusal? resolver slot symbol).getD (if address = 0 then .unresolved else .ok)

/-- The status of a thread tells how its call went: in order if and only if the call has given an
address, and else why it has given none.  A slot that is said to be unresolved is given up for
good. -/
structure Truthful (resolver : Option Resolver) (thread : Thread) (slot symbol : Option String)
    (address : Address) (m : Memory) : Prop where
  ok_iff : m.statuses thread = .ok ↔ address ≠ 0
  status_eq : m.statuses thread = verdict resolver slot symbol address
  unresolvable_of_unresolved : m.statuses thread = .unresolved →
    ∃ name, slot = some name ∧ m.slots name = unresolvable

/-- What a call of a thread on a slot may not touch is as it was. -/
structure Leaves (thread : Thread) (slot : Option String) (m m' : Memory) : Prop where
  statuses : ∀ other, other ≠ thread → m'.statuses other = m.statuses other
  slots : ∀ name, slot ≠ some name → m'.slots name = m.slots name

variable {s : Session} {m m' : Memory} {thread : Thread} {slot symbol : Option String}
  {seen : Option Resolver} {status : Status}

theorem Leaves.refl (m : Memory) : Leaves thread slot m m :=
  ⟨fun _ _ => rfl, fun _ _ => rfl⟩

theorem Leaves.trans {m'' : Memory} (first : Leaves thread slot m m')
    (second : Leaves thread slot m' m'') : Leaves thread slot m m'' where
  statuses := fun other hother =>
    (second.statuses other hother).trans (first.statuses other hother)
  slots := fun name hname => (second.slots name hname).trans (first.slots name hname)

theorem leaves_setStatus (m : Memory) (thread : Thread) (slot : Option String)
    (status : Status) : Leaves thread slot m (m.setStatus thread status) where
  statuses := fun _ hother => Memory.statuses_setStatus_of_ne m status hother
  slots := fun _ _ => rfl

/-! ## Refusals -/

/-- A refused call is not told that all is in order or that its slot is given up. -/
theorem ne_of_refusal? (hrefused : refusal? seen slot symbol = some status) :
    status ≠ .ok ∧ status ≠ .unresolved := by
  rw [refusal?] at hrefused
  split at hrefused
  · cases hrefused
    exact ⟨nofun, nofun⟩
  · split at hrefused
    · cases hrefused
      exact ⟨nofun, nofun⟩
    · cases hrefused

/-- The status of a thread whose call has been refused. -/
theorem truthful_refused (hrefused : refusal? seen slot symbol = some status)
    (hstatus : m.statuses thread = status) : Truthful seen thread slot symbol 0 m := by
  obtain ⟨hok, hunresolved⟩ := ne_of_refusal? hrefused
  refine ⟨?_, ?_, ?_⟩
  · rw [hstatus]
    exact iff_of_false hok fun h => h rfl
  · rw [hstatus, verdict, hrefused]
    rfl
  · intro h
    exact absurd (hstatus.symm.trans h) hunresolved

/-! ## Calls -/

namespace Call

variable {c c' : Call}

/-- A step changes no status but that of the thread of the call, and no slot but its own. -/
theorem leaves_of_step (hstep : Step m c m' c') : Leaves c.thread (some c.slot) m m' := by
  cases hstep with
  | @publish value hphase hnull =>
    refine ⟨fun _ _ => rfl, ?_⟩
    intro name hname
    exact Memory.slots_setSlot_of_ne m value fun heq => hname (congrArg some heq.symm)
  | report hphase => exact leaves_setStatus m c.thread (some c.slot) _
  | _ => exact ⟨fun _ _ => rfl, fun _ _ => rfl⟩

/-- When a call returns, the status of its thread and its slot say what it has given. -/
theorem truthful_of_step (hstep : Step m c m' c') (hsound : Sound m c)
    (hadmitted : refusal? seen (some c.slot) symbol = none)
    (hbefore : c.isFinished = false) (hafter : c'.isFinished = true) (text : String) :
    Truthful seen c.thread (some c.slot) symbol (Result.ofCall text c').address m' := by
  cases hstep with
  | @report value hphase =>
    rw [Sound, hphase] at hsound
    obtain ⟨hslot, hnull⟩ := hsound
    have haddress : (Result.ofCall text (c.enter (.finished value))).address =
        (addressOf value).getD 0 := rfl
    rw [haddress, addressOf]
    by_cases hlost : value = unresolvable
    · rw [if_pos hlost, if_pos hlost]
      have hstatus := Memory.statuses_setStatus m c.thread .unresolved
      refine ⟨?_, ?_, fun _ => ⟨c.slot, rfl, hslot.trans hlost⟩⟩
      · rw [hstatus]
        exact iff_of_false (by decide) fun h => h rfl
      · rw [hstatus, verdict, hadmitted]
        rfl
    · rw [if_neg hlost, if_neg hlost]
      have hstatus := Memory.statuses_setStatus m c.thread .ok
      refine ⟨?_, ?_, ?_⟩
      · rw [hstatus]
        exact iff_of_true rfl hnull
      · rw [hstatus, verdict, hadmitted]
        exact (if_neg hnull).symm
      · intro hunresolved
        rw [hstatus] at hunresolved
        cases hunresolved
  | seeSettled hphase hsettled =>
    rw [isFinished_settled] at hafter
    exact absurd hafter Bool.false_ne_true
  | publish hphase hnull =>
    split at hafter <;> exact absurd hafter Bool.false_ne_true
  | adopt hphase hsettled =>
    rw [isFinished_settled] at hafter
    exact absurd hafter Bool.false_ne_true
  | rest hphase =>
    rw [hbefore] at hafter
    exact absurd hafter Bool.false_ne_true
  | _ => exact absurd hafter Bool.false_ne_true

end Call

/-! ## One turn of a call -/

/-- What the task of a call is from its first turn on, in which it has found `seen` installed. -/
inductive Underway (seen : Option Resolver) (thread : Thread) (slot symbol : Option String) :
    Task → Prop where
  | refusing {status : Status} (hrefused : refusal? seen slot symbol = some status) :
      Underway seen thread slot symbol (.refusing thread status)
  | refused {status : Status} (hrefused : refusal? seen slot symbol = some status) :
      Underway seen thread slot symbol .refused
  | calling {text : String} {call : Call} (hadmitted : refusal? seen slot symbol = none)
      (hthread : call.thread = thread) (hslot : slot = some call.slot) :
      Underway seen thread slot symbol (.calling text call)

/-- How many turns a task has left at most. -/
def Task.turnsLeft : Task → Nat
  | .install _ => 1
  | .installed => 0
  | .ask .. => Call.stepLimit + 1
  | .refusing .. => 1
  | .refused => 0
  | .calling _ call => Call.stepsLeft call.phase

namespace Underway

variable {t : Task}

/-- The first turn of a call looks at the resolver and changes nothing. -/
theorem step_ask (s : Session) (thread : Thread) (slot symbol : Option String) :
    (Task.step s (.ask thread slot symbol)).1 = s ∧
      Underway s.resolver thread slot symbol (Task.step s (.ask thread slot symbol)).2 ∧
      (Task.step s (.ask thread slot symbol)).2.turnsLeft ≤ Call.stepLimit := by
  have hone : 1 ≤ Call.stepLimit := by decide
  cases slot with
  | none => exact ⟨rfl, .refusing rfl, hone⟩
  | some name =>
    cases symbol with
    | none => exact ⟨rfl, .refusing rfl, hone⟩
    | some text =>
      rw [Task.step, Task.consult]
      cases s.resolver with
      | none => exact ⟨rfl, .refusing rfl, hone⟩
      | some resolver => exact ⟨rfl, .calling rfl rfl rfl, Nat.le_refl _⟩

theorem step (hunder : Underway seen thread slot symbol t) (s : Session) :
    Underway seen thread slot symbol (Task.step s t).2 ∧
      (Task.step s t).2.turnsLeft ≤ t.turnsLeft - 1 := by
  cases hunder with
  | refusing hrefused => exact ⟨.refused hrefused, Nat.le_refl _⟩
  | refused hrefused => exact ⟨.refused hrefused, Nat.le_refl _⟩
  | @calling text call hadmitted hthread hslot =>
    have hrequest := Call.request_of_step (Call.step_spec s.memory call)
    refine ⟨.calling hadmitted ?_ ?_, Call.stepsLeft_step s.memory call⟩
    · exact (congrArg Request.thread hrequest).trans hthread
    · exact hslot.trans (congrArg (fun r => some r.slot) hrequest.symm)

/-- A call that has no turns left has returned. -/
theorem isSome_result? (hunder : Underway seen thread slot symbol t) (hleft : t.turnsLeft = 0) :
    t.result?.isSome = true := by
  cases hunder with
  | refusing hrefused => exact absurd hleft Nat.one_ne_zero
  | refused hrefused => rfl
  | calling hadmitted hthread hslot =>
    rw [Task.result?, if_pos (Call.isFinished_of_stepsLeft hleft)]
    rfl

theorem leaves_step (hunder : Underway seen thread slot symbol t) (s : Session) :
    Leaves thread slot s.memory (Task.step s t).1.memory := by
  cases hunder with
  | refusing hrefused => exact leaves_setStatus s.memory thread slot _
  | refused hrefused => exact Leaves.refl s.memory
  | @calling text call hadmitted hthread hslot =>
    subst hthread hslot
    exact Call.leaves_of_step (Call.step_spec s.memory call)

/-- In the turn in which a call returns, the status of its thread is set to what has happened. -/
theorem truthful_step (hunder : Underway seen thread slot symbol t) (hsound : t.Sound s.memory)
    (hbefore : t.result? = none) {r : Result} (hafter : (Task.step s t).2.result? = some r) :
    Truthful seen thread slot symbol r.address (Task.step s t).1.memory := by
  cases hunder with
  | refusing hrefused =>
    obtain rfl : ({} : Result) = r := Option.some.inj hafter
    exact truthful_refused hrefused (Memory.statuses_setStatus s.memory thread _)
  | refused hrefused => cases hbefore
  | @calling text call hadmitted hthread hslot =>
    subst hthread hslot
    have hopen : call.isFinished = false := by
      cases h : call.isFinished with
      | false => rfl
      | true => simp [Task.result?, h] at hbefore
    rw [Task.step, Task.result?] at hafter
    split at hafter
    · rename_i hfinished
      rw [← Option.some.inj hafter]
      exact Call.truthful_of_step (Call.step_spec s.memory call) hsound hadmitted hopen
        hfinished text
    · cases hafter

/-- A call that is refused looks nothing up, and its turns change nothing but the status of its
thread. -/
theorem refused_step (hunder : Underway seen thread slot symbol t) (s : Session)
    (hrefused : refusal? seen slot symbol = some status) :
    t.lookups = [] ∧
      ((Task.step s t).1 = s ∨ (Task.step s t).1 = s.setStatus thread status) := by
  cases hunder with
  | refusing hsame =>
    rw [hrefused] at hsame
    cases hsame
    exact ⟨rfl, Or.inr rfl⟩
  | refused hsame => exact ⟨rfl, Or.inl rfl⟩
  | calling hadmitted hthread hslot =>
    rw [hrefused] at hadmitted
    cases hadmitted

/-- A call that has returned changes nothing any more. -/
theorem step_of_returned (hunder : Underway seen thread slot symbol t) (s : Session) {r : Result}
    (hreturned : t.result? = some r) : Task.step s t = (s, t) := by
  cases hunder with
  | refusing hrefused => cases hreturned
  | refused hrefused => rfl
  | @calling text call hadmitted hthread hslot =>
    rw [Task.result?] at hreturned
    split at hreturned
    · rename_i hfinished
      rw [Call.isFinished] at hfinished
      split at hfinished
      · rename_i value hphase
        rw [Task.step, Call.step, hphase]
      · exact absurd hfinished Bool.false_ne_true
    · cases hreturned

end Underway

/-! ## Calls in one go -/

/-- All turns of a call, one after the other: if it has returned by the end, the status of its
thread says how it went. -/
theorem Underway.steps {t : Task} (hunder : Underway seen thread slot symbol t)
    (hsound : t.Sound s.memory)
    (htold : ∀ r, t.result? = some r → Truthful seen thread slot symbol r.address s.memory)
    (n : Nat) :
    Leaves thread slot s.memory (Task.steps s t n).1.memory ∧
      ∀ r, (Task.steps s t n).2.result? = some r →
        Truthful seen thread slot symbol r.address (Task.steps s t n).1.memory := by
  induction n generalizing s t with
  | zero => exact ⟨Leaves.refl s.memory, htold⟩
  | succ n ih =>
    have hnext : ∀ r, (Task.step s t).2.result? = some r →
        Truthful seen thread slot symbol r.address (Task.step s t).1.memory := by
      intro r hr
      cases hresult : t.result? with
      | none => exact hunder.truthful_step hsound hresult hr
      | some r' =>
        rw [hunder.step_of_returned s hresult] at hr ⊢
        exact htold r hr
    obtain ⟨hleaves, htruthful⟩ := ih (hunder.step s).1 (Task.sound_step hsound) hnext
    exact ⟨(hunder.leaves_step s).trans hleaves, htruthful⟩

namespace Session

theorem resolveChecked_truthful (s : Session) (thread : Thread) (slot symbol : Option String) :
    Leaves thread slot s.memory (s.resolveChecked thread slot symbol).2.memory ∧
      Truthful s.resolver thread slot symbol (s.resolveChecked thread slot symbol).1.address
        (s.resolveChecked thread slot symbol).2.memory := by
  obtain ⟨hsame, hunder, -⟩ := Underway.step_ask s thread slot symbol
  obtain ⟨hsession, hresult⟩ := Task.steps_ask s thread slot symbol
  have hsound : (Task.step s (.ask thread slot symbol)).2.Sound s.memory := by
    have hnext : (Task.step s (.ask thread slot symbol)).2.Sound
        (Task.step s (.ask thread slot symbol)).1.memory := Task.sound_step trivial
    rwa [hsame] at hnext
  have hopen : (Task.step s (.ask thread slot symbol)).2.result? = none := by
    cases slot with
    | none => rfl
    | some name =>
      cases symbol with
      | none => rfl
      | some text =>
        rw [Task.step, Task.consult]
        cases s.resolver <;> rfl
  have hsteps : Task.steps s (.ask thread slot symbol) (Call.stepLimit + 1) =
      Task.steps s (Task.step s (.ask thread slot symbol)).2 Call.stepLimit := by
    rw [Task.steps, hsame]
  rw [hsteps] at hsession hresult
  have hdone := hunder.steps hsound (fun r hr => by rw [hopen] at hr; cases hr) Call.stepLimit
  rw [hsession] at hdone
  exact ⟨hdone.1, hdone.2 _ hresult⟩

/-- A refused call gives nothing and changes nothing but the status of its thread. -/
theorem resolveChecked_of_refusal? {s : Session}
    (hrefused : refusal? s.resolver slot symbol = some status) (thread : Thread) :
    s.resolveChecked thread slot symbol = ({}, s.setStatus thread status) := by
  cases slot with
  | none =>
    obtain rfl : Status.nullArgument = status := Option.some.inj hrefused
    rfl
  | some name =>
    cases symbol with
    | none =>
      obtain rfl : Status.nullArgument = status := Option.some.inj hrefused
      rfl
    | some text =>
      cases hresolver : s.resolver with
      | none =>
        rw [hresolver] at hrefused
        obtain rfl : Status.noResolver = status := Option.some.inj hrefused
        exact resolve_of_no_resolver hresolver thread name text
      | some resolver =>
        rw [hresolver] at hrefused
        cases hrefused

/-- A slot that is null is resolved with what the installed resolver finds. -/
theorem resolveChecked_of_null {s : Session} {name text : String} {resolver : Resolver}
    (hresolver : s.resolver = some resolver) (hslot : s.memory.slots name = 0)
    (hnull : resolver (symbolOf text) ≠ 0) (hfound : resolver (symbolOf text) ≠ unresolvable)
    (thread : Thread) :
    s.resolveChecked thread (some name) (some text) =
      (⟨resolver (symbolOf text), [symbolOf text]⟩,
        { s with
          memory := (s.memory.setSlot name (resolver (symbolOf text))).countCall.setStatus
            thread .ok }) := by
  simp [resolveChecked, resolve, hresolver, resolveWith, finish, Call.finish, Call.stepLimit,
    Call.steps, Call.step, Call.enter, Call.published, hslot, hnull, hfound, Result.ofCall,
    Call.answer?, Call.addressOf]

end Session

/-! ## Calls that others interrupt -/

/-- Errands that have not been begun, in a session. -/
def setOutIn (s : Session) (errands : List Errand) : Crowd Session Task :=
  ⟨s, errands.map Errand.task⟩

theorem sound_setOutIn_run (s : Session) (errands : List Errand) (schedule : List Nat) :
    ∀ t ∈ ((setOutIn s errands).run Task.step schedule).agents,
      t.Sound ((setOutIn s errands).run Task.step schedule).world.memory := by
  refine @Crowd.run_induction _ _ Task.step (fun c => ∀ t ∈ c.agents, t.Sound c.world.memory)
    (fun _ i hsound => sound_tasks_turn hsound i) schedule _ ?_
  intro t hmem
  obtain ⟨errand, -, rfl⟩ := List.mem_map.mp hmem
  exact Task.sound_task _ errand

/-- A call that has begun is on its way in every schedule, and each of its turns brings it nearer
to its end. -/
theorem exists_underway_run {c : Crowd Session Task} {i : Nat}
    (hasked : c.agents[i]? = some (.ask thread slot symbol)) (more : List Nat) :
    ∃ task, (c.run Task.step (i :: more)).agents[i]? = some task ∧
      Underway c.world.resolver thread slot symbol task ∧
      task.turnsLeft ≤ Call.stepLimit - more.count i := by
  obtain ⟨-, hunder, hleft⟩ := Underway.step_ask c.world thread slot symbol
  have hstep (n : Nat) (s : Session) (t : Task)
      (ht : Underway c.world.resolver thread slot symbol t ∧ t.turnsLeft ≤ n) :
      Underway c.world.resolver thread slot symbol (Task.step s t).2 ∧
        (Task.step s t).2.turnsLeft ≤ n - 1 := by
    obtain ⟨hstays, hnearer⟩ := ht.1.step s
    exact ⟨hstays, hnearer.trans (Nat.sub_le_sub_right ht.2 1)⟩
  exact Crowd.exists_getElem?_run_count hstep more
    (Crowd.getElem?_turn_self Task.step hasked) ⟨hunder, hleft⟩

/-- What a turn of a call does that has begun, whatever other tasks have done since. -/
theorem turn_of_asked {c : Crowd Session Task}
    (hsound : ∀ t ∈ c.agents, t.Sound c.world.memory) {i : Nat}
    (hasked : c.agents[i]? = some (.ask thread slot symbol)) (more : List Nat) :
    ∃ task, (c.run Task.step (i :: more)).agents[i]? = some task ∧
      Underway c.world.resolver thread slot symbol task ∧
      task.Sound (c.run Task.step (i :: more)).world.memory ∧
      task.turnsLeft ≤ Call.stepLimit - more.count i ∧
      ((c.run Task.step (i :: more)).turn Task.step i).world =
        (Task.step (c.run Task.step (i :: more)).world task).1 := by
  obtain ⟨task, hget, hunder, hleft⟩ := exists_underway_run hasked more
  have hkept := @Crowd.run_induction _ _ Task.step
    (fun c => ∀ t ∈ c.agents, t.Sound c.world.memory) (fun _ i h => sound_tasks_turn h i)
    (i :: more) c hsound
  refine ⟨task, hget, hunder, hkept task (List.mem_of_getElem? hget), hleft, ?_⟩
  rw [Crowd.turn_of_some hget]

/-- The status of a thread tells how its call went, in every state that a run can reach and for
every call, and a call changes nothing that is not its own.  A call that is refused changes
nothing but the status, so that a slot that is null is still resolved by a later call that finds
a resolver installed.

This is so for a call in one go (the first part), and for a call that has begun and is interrupted
by others in any way (the second part): it returns after a few turns of its own, and when it
does, its thread is told the truth.  `seen` is the resolver that was installed when it began. -/
theorem truthful_of_run (s : Session) (errands : List Errand) (schedule : List Nat) :
    let now := (setOutIn s errands).run Task.step schedule
    let seen := now.world.resolver
    (∀ thread slot symbol,
      let done := now.world.resolveChecked thread slot symbol
      Leaves thread slot now.world.memory done.2.memory ∧
      Truthful seen thread slot symbol done.1.address done.2.memory ∧
      ∀ status, refusal? seen slot symbol = some status →
        done = ({}, now.world.setStatus thread status) ∧
        ∀ later name text (resolver : Resolver), now.world.memory.slots name = 0 →
          resolver (symbolOf text) ≠ 0 → resolver (symbolOf text) ≠ unresolvable →
          let again := (done.2.install (some resolver)).resolveChecked later (some name)
            (some text)
          again.1 = ⟨resolver (symbolOf text), [symbolOf text]⟩ ∧
          again.2.memory.slots name = resolver (symbolOf text) ∧ again.2.status later = .ok) ∧
    ∀ i thread slot symbol, now.agents[i]? = some (.ask thread slot symbol) →
      (now.turn Task.step i).world = now.world ∧
      ∀ more,
        let before := now.run Task.step (i :: more)
        let after := before.turn Task.step i
        ∃ task, before.agents[i]? = some task ∧
          Leaves thread slot before.world.memory after.world.memory ∧
          (Call.stepLimit ≤ more.count i → task.result?.isSome = true) ∧
          (task.result? = none → ∀ r, (Task.step before.world task).2.result? = some r →
            Truthful seen thread slot symbol r.address after.world.memory) ∧
          ∀ status, refusal? seen slot symbol = some status → task.lookups = [] ∧
            (after.world = before.world ∨ after.world = before.world.setStatus thread status) := by
  intro now seen
  have hsound := sound_setOutIn_run s errands schedule
  refine ⟨?_, ?_⟩
  · intro thread slot symbol done
    obtain ⟨hleaves, htruthful⟩ := now.world.resolveChecked_truthful thread slot symbol
    refine ⟨hleaves, htruthful, ?_⟩
    intro status hrefused
    have hdone := Session.resolveChecked_of_refusal? hrefused thread
    refine ⟨hdone, ?_⟩
    intro later name text resolver hslot hnull hfound again
    have hsession : done.2 = now.world.setStatus thread status := congrArg Prod.snd hdone
    have hagain : again = _ := Session.resolveChecked_of_null
      (s := (done.2.install (some resolver))) rfl (by rw [hsession]; exact hslot) hnull hfound later
    rw [hagain]
    exact ⟨rfl, Memory.slots_setSlot _ name _, Memory.statuses_setStatus _ later .ok⟩
  · intro i thread slot symbol hasked
    refine ⟨?_, ?_⟩
    · rw [Crowd.turn_of_some hasked]
      exact (Underway.step_ask now.world thread slot symbol).1
    · intro more before after
      obtain ⟨task, hget, hunder, htask, hleft, hafter⟩ := turn_of_asked hsound hasked more
      have hworld : after.world = (Task.step before.world task).1 := hafter
      refine ⟨task, hget, ?_, ?_, ?_, ?_⟩
      · rw [hworld]
        exact hunder.leaves_step before.world
      · intro hturns
        exact hunder.isSome_result? (by omega)
      · intro hbefore r hr
        rw [hworld]
        exact hunder.truthful_step htask hbefore hr
      · intro status hrefused
        rw [hworld]
        exact hunder.refused_step before.world hrefused

/-- Two threads resolve a slot, and a resolver is installed. -/
def sampleErrands : List Errand := [
  .resolve 1 (some "slot") (some "glFoo"),
  .install (some fun _ => 4096),
  .resolve 2 (some "slot") (some "glFoo")]

/-- The first thread has found no resolver installed.  Before it is told so, one is installed and
the second thread resolves the slot with it. -/
def overtaken : Crowd Session Task :=
  (setOutIn {} sampleErrands).run Task.step [0, 1, 2, 2, 2, 2, 2, 2]

/-- The first thread is told that there was no resolver, and the slot stays resolved. -/
theorem truthful_overtaken :
    (setOutIn {} sampleErrands).agents[0]? = some (.ask 1 (some "slot") (some "glFoo")) ∧
      overtaken.world.memory.slots "slot" = 4096 ∧
      Truthful none 1 (some "slot") (some "glFoo") 0
        (overtaken.turn Task.step 0).world.memory := by
  have hasked : (setOutIn {} sampleErrands).agents[0]? =
    some (.ask 1 (some "slot") (some "glFoo")) := rfl
  have hrefusing : overtaken.agents[0]? = some (.refusing 1 .noResolver) := rfl
  obtain ⟨-, hturns⟩ := (truthful_of_run {} sampleErrands []).2 0 1 (some "slot")
    (some "glFoo") hasked
  obtain ⟨task, hget, -, -, htruthful, -⟩ := hturns [1, 2, 2, 2, 2, 2, 2]
  obtain rfl : task = .refusing 1 .noResolver := Option.some.inj (hget.symm.trans hrefusing)
  exact ⟨hasked, rfl, htruthful rfl {} rfl⟩

end CallBridge.Resolution

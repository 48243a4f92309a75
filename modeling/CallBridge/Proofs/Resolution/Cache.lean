import CallBridge.Proofs.Interleaving
import CallBridge.Proofs.Resolution.Steps
import CallBridge.Resolution.Task

/-!
# Settled slots are served from the cache

Once a call has returned an address, the slot holds it for good, whatever resolvers are
installed or removed.  A later call that gets as far as reading the slot returns the
address without a lookup.  A task through the resolver looks at the resolver first, so it
gets that far only if one is installed.

* `Call.isServed_step`: a call on a slot that holds an address has no way left but to
  return it;
* `Session.resolveWith_of_slots` and `Session.resolveChecked_of_slots`: what an errand on
  such a slot gives in one go;
* `ends_of_isServed` and `ends_of_refusing`: what it gives in every schedule;
* `served_of_run` says what errands give once a call on their slot has returned, and
  `refused_after_removal` is a run in which one of them gives nothing.
-/

namespace CallBridge.Resolution

variable {m : Memory} {slot : String} {address : Address}

/-! ## Calls -/

namespace Call

variable {c : Call}

/-- The call has not looked anything up, and all it can still do is return the address. -/
structure IsServed (address : Address) (c : Call) : Prop where
  lookedUp : c.lookedUp = false
  phase : c.phase = .reading ∨ c.phase = .countingCall address ∨
    c.phase = .reporting address ∨ c.phase = .finished address

/-- A call on a slot that holds an address stays one that is served. -/
theorem isServed_step (hslot : m.slots c.slot = address) (hnull : address ≠ 0)
    (hfound : address ≠ unresolvable) (hserved : c.IsServed address) :
    (c.step m).2.IsServed address := by
  obtain ⟨hlooked, hphase⟩ := hserved
  subst hslot
  rcases hphase with hphase | hphase | hphase | hphase
  · rw [step, hphase]
    simp only [if_neg hnull, settled, if_neg hfound]
    exact ⟨hlooked, Or.inr (Or.inl rfl)⟩
  · rw [step, hphase]
    exact ⟨hlooked, Or.inr (Or.inr (Or.inl rfl))⟩
  · rw [step, hphase]
    exact ⟨hlooked, Or.inr (Or.inr (Or.inr rfl))⟩
  · rw [step, hphase]
    exact ⟨hlooked, Or.inr (Or.inr (Or.inr hphase))⟩

theorem isFinished_settled (c : Call) (value : Address) :
    (c.enter (settled value)).isFinished = false := by
  unfold settled
  split <;> rfl

/-- The step with which a call returns sets the status of its thread. -/
theorem reporting_of_step {m' : Memory} {c' : Call} (hstep : Step m c m' c')
    (hbefore : c.isFinished = false) (hafter : c'.isFinished = true) :
    ∃ value, c.phase = .reporting value ∧
      m'.statuses c.thread = if value = unresolvable then .unresolved else .ok := by
  cases hstep with
  | @report value hphase => exact ⟨value, hphase, Memory.statuses_setStatus m c.thread _⟩
  | seeSettled hphase hsettled =>
    rw [isFinished_settled] at hafter
    exact absurd hafter Bool.false_ne_true
  | publish hphase hnull =>
    split at hafter <;> exact absurd hafter Bool.false_ne_true
  | adopt hphase hsettled =>
    rw [isFinished_settled] at hafter
    exact absurd hafter Bool.false_ne_true
  | rest hphase =>
    rw [hbefore] at hafter
    exact absurd hafter Bool.false_ne_true
  | _ => exact absurd hafter Bool.false_ne_true

/-- A call that is served returns with the status of its thread in order. -/
theorem statuses_of_isServed (hfound : address ≠ unresolvable) (hserved : c.IsServed address)
    (hbefore : c.isFinished = false) (hafter : (c.step m).2.isFinished = true) :
    (c.step m).1.statuses c.thread = .ok := by
  obtain ⟨value, hreporting, hstatus⟩ := reporting_of_step (step_spec m c) hbefore hafter
  have hphase := hserved.phase
  rw [hreporting] at hphase
  obtain rfl : value = address := by simpa using hphase
  rw [hstatus, if_neg hfound]

theorem ofCall_of_isServed (hfound : address ≠ unresolvable) (hserved : c.IsServed address)
    (hfinished : c.isFinished = true) (symbol : String) :
    Result.ofCall symbol c = ⟨address, []⟩ := by
  rw [isFinished] at hfinished
  rcases hserved.phase with hphase | hphase | hphase | hphase
  · rw [hphase] at hfinished
    exact absurd hfinished Bool.false_ne_true
  · rw [hphase] at hfinished
    exact absurd hfinished Bool.false_ne_true
  · rw [hphase] at hfinished
    exact absurd hfinished Bool.false_ne_true
  · simp [Result.ofCall, answer?, hphase, addressOf, hfound, hserved.lookedUp]

end Call

/-! ## Tasks -/

namespace Task

variable {s : Session} {t : Task}

/-- What a task knows of its slot and its lookup, as far as it has become a call. -/
def Sound (m : Memory) : Task → Prop
  | .calling _ call => call.Sound m
  | _ => True

theorem sound_task (m : Memory) (errand : Errand) : errand.task.Sound m := by
  cases errand with
  | install resolver => trivial
  | resolve thread slot symbol => trivial
  | resolveWith thread slot symbol found => exact Call.sound_call m ⟨thread, slot, found⟩

/-- A slot that is settled stays as it is. -/
theorem slots_step_of_ne_zero (s : Session) (t : Task) (hsettled : s.memory.slots slot ≠ 0) :
    (step s t).1.memory.slots slot = s.memory.slots slot := by
  cases t with
  | calling symbol call =>
    exact Call.slots_of_step_of_ne_zero (Call.step_spec s.memory call) hsettled
  | ask thread slot symbol => cases slot <;> cases symbol <;> rfl
  | _ => rfl

theorem sound_step (hsound : t.Sound s.memory) :
    (step s t).2.Sound (step s t).1.memory := by
  cases t with
  | calling symbol call => exact Call.sound_of_step (Call.step_spec s.memory call) hsound
  | ask thread slot symbol =>
    cases slot with
    | none => trivial
    | some slot =>
      cases symbol with
      | none => trivial
      | some symbol =>
        rw [step, consult]
        cases s.resolver with
        | none => trivial
        | some resolver =>
          exact Call.sound_call s.memory ⟨thread, slot, resolver (symbolOf symbol)⟩
  | _ => trivial

theorem Sound.of_slots {m' : Memory} (hsound : t.Sound m)
    (hkept : ∀ slot, m.slots slot ≠ 0 → m'.slots slot = m.slots slot) : t.Sound m' := by
  cases t with
  | calling symbol call => exact Call.Sound.of_slots hsound hkept
  | _ => trivial

/-- A call on a slot has returned an address. -/
structure Returned (slot : String) (address : Address) (t : Task) : Prop where
  slot : t.slot? = some slot
  result : t.result?.map Result.address = some address
  ne_null : address ≠ 0

/-- What a call has returned is what its slot holds. -/
theorem slots_of_returned (hsound : t.Sound m) (hreturned : t.Returned slot address) :
    m.slots slot = address ∧ address ≠ unresolvable := by
  obtain ⟨hslot, hresult, hnull⟩ := hreturned
  cases t with
  | calling symbol call =>
    obtain rfl : call.slot = slot := Option.some.inj hslot
    rw [Sound, Call.Sound] at hsound
    cases hphase : call.phase with
    | finished value =>
      rw [hphase] at hsound
      have haddress : (Call.addressOf value).getD 0 = address := by
        simpa [result?, Call.isFinished, hphase, Result.ofCall, Call.answer?] using hresult
      rw [Call.addressOf] at haddress
      split at haddress
      · exact absurd haddress.symm hnull
      · rename_i hfound
        obtain rfl : value = address := haddress
        exact ⟨hsound.1, hfound⟩
    | _ => simp [result?, Call.isFinished, hphase] at hresult
  | _ => cases hslot

end Task

/-! ## Schedules -/

/-- Errands that have not been begun, in a fresh runtime. -/
def setOut (errands : List Errand) : Crowd Session Task :=
  ⟨{}, errands.map Errand.task⟩

variable {c : Crowd Session Task}

theorem sound_tasks_turn (hsound : ∀ t ∈ c.agents, t.Sound c.world.memory) (i : Nat) :
    ∀ t ∈ (c.turn Task.step i).agents, t.Sound (c.turn Task.step i).world.memory := by
  cases hget : c.agents[i]? with
  | none =>
    rw [Crowd.turn_of_none hget]
    exact hsound
  | some task =>
    intro t hmem
    rcases Crowd.mem_agents_turn hget hmem with hold | rfl
    · rw [Crowd.turn_of_some hget]
      exact (hsound t hold).of_slots fun _ => Task.slots_step_of_ne_zero c.world task
    · rw [Crowd.turn_of_some hget]
      exact Task.sound_step (hsound task (List.mem_of_getElem? hget))

theorem sound_tasks_run (errands : List Errand) (schedule : List Nat) :
    ∀ t ∈ ((setOut errands).run Task.step schedule).agents,
      t.Sound ((setOut errands).run Task.step schedule).world.memory := by
  refine @Crowd.run_induction _ _ Task.step (fun c => ∀ t ∈ c.agents, t.Sound c.world.memory)
    (fun _ i hsound => sound_tasks_turn hsound i) schedule _ ?_
  intro t hmem
  obtain ⟨errand, -, rfl⟩ := List.mem_map.mp hmem
  exact Task.sound_task _ errand

theorem slots_turn (hslot : c.world.memory.slots slot = address) (hnull : address ≠ 0)
    (i : Nat) : (c.turn Task.step i).world.memory.slots slot = address := by
  cases hget : c.agents[i]? with
  | none =>
    rw [Crowd.turn_of_none hget]
    exact hslot
  | some task =>
    rw [Crowd.turn_of_some hget]
    exact (Task.slots_step_of_ne_zero c.world task (hslot.trans_ne hnull)).trans hslot

theorem slots_run (hslot : c.world.memory.slots slot = address) (hnull : address ≠ 0)
    (schedule : List Nat) : (c.run Task.step schedule).world.memory.slots slot = address :=
  @Crowd.run_induction _ _ Task.step (fun c => c.world.memory.slots slot = address)
    (fun _ i h => slots_turn h hnull i) schedule _ hslot

/-- A call that is served is so in every schedule, and each of its turns brings it nearer to
its end. -/
theorem exists_served_run {j : Nat} {symbol : String} {call : Call}
    (hslot : c.world.memory.slots slot = address) (hnull : address ≠ 0)
    (hfound : address ≠ unresolvable) (hget : c.agents[j]? = some (.calling symbol call))
    (hon : call.slot = slot) (hserved : call.IsServed address) (schedule : List Nat) :
    ∃ last, (c.run Task.step schedule).agents[j]? = some (.calling symbol last) ∧
      last.request = call.request ∧ last.IsServed address ∧
      Call.stepsLeft last.phase ≤ Call.stepsLeft call.phase - schedule.count j := by
  induction schedule generalizing c call with
  | nil => exact ⟨call, hget, rfl, hserved, Nat.le_refl _⟩
  | cons i schedule ih =>
    have hkept := slots_turn hslot hnull i
    by_cases hturn : i = j
    · subst hturn
      rw [← hon] at hslot
      have hrequest := Call.request_of_step (Call.step_spec c.world.memory call)
      have hnearer := Call.stepsLeft_step c.world.memory call
      obtain ⟨last, hlast, hsame, hstill, hleft⟩ :=
        ih hkept (Crowd.getElem?_turn_self Task.step hget)
          ((congrArg Request.slot hrequest).trans hon)
          (Call.isServed_step hslot hnull hfound hserved)
      refine ⟨last, hlast, hsame.trans hrequest, hstill, ?_⟩
      rw [List.count_cons_self]
      omega
    · rw [Crowd.run_cons, List.count_cons_of_ne hturn]
      exact ih hkept ((Crowd.getElem?_turn_of_ne hturn).trans hget) hon hserved

/-- A task that is being refused gives nothing, and one turn is enough. -/
theorem exists_refused_run {j : Nat} {thread : Thread} {status : Status}
    (hget : c.agents[j]? = some (.refusing thread status)) (schedule : List Nat) :
    (c.run Task.step schedule).agents[j]? =
      some (if j ∈ schedule then .refused else .refusing thread status) := by
  have hstays (c : Crowd Session Task) (hget : c.agents[j]? = some .refused)
      (schedule : List Nat) : (c.run Task.step schedule).agents[j]? = some .refused := by
    have hkeeps (s : Session) (t : Task) (ht : t = .refused) : (t.step s).2 = .refused := by
      rw [ht, Task.step]
    obtain ⟨last, hlast, rfl⟩ := Crowd.exists_getElem?_run hkeeps schedule hget rfl
    exact hlast
  induction schedule generalizing c with
  | nil => exact hget
  | cons i schedule ih =>
    rw [Crowd.run_cons]
    by_cases hturn : i = j
    · subst hturn
      rw [if_pos List.mem_cons_self]
      exact hstays _ (Crowd.getElem?_turn_self Task.step hget) schedule
    · rw [ih ((Crowd.getElem?_turn_of_ne hturn).trans hget)]
      simp [Ne.symm hturn]

/-! ## What a task comes to -/

/-- However the schedule goes on, the task at a place looks nothing up, gives one result and no
other, after `turns` turns at the latest, and leaves the status to its thread when it
returns. -/
def Ends (c : Crowd Session Task) (place turns : Nat) (thread : Thread) (result : Result)
    (status : Status) : Prop :=
  ∀ schedule, ∃ task, (c.run Task.step schedule).agents[place]? = some task ∧
    task.lookups = [] ∧ (∀ r, task.result? = some r → r = result) ∧
    (turns ≤ schedule.count place → task.result? = some result) ∧
    (task.result? = none →
      (Task.step (c.run Task.step schedule).world task).2.result?.isSome = true →
      (Task.step (c.run Task.step schedule).world task).1.status thread = status)

theorem ends_of_isServed {j : Nat} {thread : Thread} {symbol : String} {call : Call}
    (hslot : c.world.memory.slots slot = address) (hnull : address ≠ 0)
    (hfound : address ≠ unresolvable) (hget : c.agents[j]? = some (.calling symbol call))
    (hon : call.slot = slot) (hby : call.thread = thread) (hserved : call.IsServed address) :
    Ends c j Call.stepLimit thread ⟨address, []⟩ .ok := by
  intro schedule
  obtain ⟨last, hlast, hrequest, hstill, hleft⟩ :=
    exists_served_run hslot hnull hfound hget hon hserved schedule
  have hgives := Call.ofCall_of_isServed hfound hstill
  refine ⟨.calling symbol last, hlast, ?_, ?_, ?_, ?_⟩
  · simp [Task.lookups, Result.ofCall, hstill.lookedUp]
  · intro r hr
    rw [Task.result?] at hr
    split at hr
    · rename_i hfinished
      rw [← Option.some.inj hr, hgives hfinished]
    · cases hr
  · intro hturns
    have hmost : Call.stepsLeft call.phase ≤ Call.stepLimit := by
      cases call.phase <;> simp [Call.stepsLeft, Call.stepLimit]
    have hfinished : last.isFinished = true := Call.isFinished_of_stepsLeft (by omega)
    rw [Task.result?, if_pos hfinished, hgives hfinished]
  · intro hbefore hafter
    have hopen : last.isFinished = false := by
      cases h : last.isFinished with
      | false => rfl
      | true => simp [Task.result?, h] at hbefore
    have hdone : (last.step (c.run Task.step schedule).world.memory).2.isFinished = true := by
      simpa [Task.step, Task.result?] using hafter
    have hthread : last.thread = thread := (congrArg Request.thread hrequest).trans hby
    rw [← hthread]
    exact Call.statuses_of_isServed hfound hstill hopen hdone

theorem ends_of_refusing {j : Nat} {thread : Thread} {status : Status}
    (hget : c.agents[j]? = some (.refusing thread status)) : Ends c j 1 thread {} status := by
  intro schedule
  refine ⟨_, exists_refused_run hget schedule, ?_⟩
  by_cases hmem : j ∈ schedule
  · rw [if_pos hmem]
    exact ⟨rfl, fun r hr => (Option.some.inj hr).symm, fun _ => rfl, nofun⟩
  · rw [if_neg hmem, List.count_eq_zero.mpr hmem]
    exact ⟨rfl, nofun, nofun, fun _ _ => Memory.statuses_setStatus _ thread status⟩

namespace Session

/-- A slot that holds an address is resolved with it, and the lookup does not run. -/
theorem resolveWith_of_slots {s : Session} (hslot : s.memory.slots slot = address)
    (hnull : address ≠ 0) (hfound : address ≠ unresolvable) (thread : Thread)
    (symbol : String) (found : Address) :
    s.resolveWith thread slot symbol found =
      (⟨address, []⟩, { s with memory := s.memory.countCall.setStatus thread .ok }) := by
  subst hslot
  simp [resolveWith, finish, Call.finish, Call.stepLimit, Call.steps, Call.step, Call.enter,
    Call.settled, hnull, hfound, Result.ofCall, Call.answer?, Call.addressOf]

/-- A slot that holds an address is resolved with it if a resolver is installed, and not at all
if none is. -/
theorem resolveChecked_of_slots {s : Session} (hslot : s.memory.slots slot = address)
    (hnull : address ≠ 0) (hfound : address ≠ unresolvable) (thread : Thread)
    (symbol : String) :
    s.resolveChecked thread (some slot) (some symbol) =
      if s.resolver.isSome then
        (⟨address, []⟩, { s with memory := s.memory.countCall.setStatus thread .ok })
      else ({}, s.setStatus thread .noResolver) := by
  by_cases hresolver : s.resolver.isSome = true
  · obtain ⟨resolver, hinstalled⟩ := Option.isSome_iff_exists.mp hresolver
    have hresolve : s.resolve thread slot symbol =
        s.resolveWith thread slot symbol (resolver (symbolOf symbol)) := by
      rw [resolve, hinstalled]
    rw [if_pos hresolver, resolveChecked, hresolve]
    exact resolveWith_of_slots hslot hnull hfound thread symbol _
  · rw [if_neg hresolver]
    exact resolve_of_no_resolver (by simpa using hresolver) thread slot symbol

end Session

/-- Once a call on a slot has returned an address, the slot holds it, whatever has happened
since.  A later errand with a lookup of its own gives the address, without a lookup and with the
status of its thread in order, in one go as well as in any schedule.  A later errand through
the resolver gives it as well if it finds a resolver installed.  If it finds none, it gives
nothing and tells its thread so, and the slot stays as it is. -/
theorem served_of_run (errands : List Errand) (schedule : List Nat) {i j : Nat}
    {done later : Task} {slot : String} {address : Address} (thread : Thread) (symbol : String)
    (hdone : ((setOut errands).run Task.step schedule).agents[i]? = some done)
    (hreturned : done.Returned slot address)
    (hlater : ((setOut errands).run Task.step schedule).agents[j]? = some later) :
    let now := (setOut errands).run Task.step schedule
    let s := now.world
    (∀ more, (now.run Task.step more).world.memory.slots slot = address) ∧
    (∀ found,
      (s.resolveWith thread slot symbol found).1 = ⟨address, []⟩ ∧
      (s.resolveWith thread slot symbol found).2.status thread = .ok ∧
      (later = .own thread slot symbol found →
        Ends (now.turn Task.step j) j 5 thread ⟨address, []⟩ .ok)) ∧
    (s.resolver.isSome = true →
      (s.resolveChecked thread (some slot) (some symbol)).1 = ⟨address, []⟩ ∧
      (s.resolveChecked thread (some slot) (some symbol)).2.status thread = .ok ∧
      (later = .ask thread (some slot) (some symbol) →
        Ends (now.turn Task.step j) j 5 thread ⟨address, []⟩ .ok)) ∧
    (s.resolver.isSome = false →
      (s.resolveChecked thread (some slot) (some symbol)).1 = {} ∧
      (s.resolveChecked thread (some slot) (some symbol)).2.status thread = .noResolver ∧
      (later = .ask thread (some slot) (some symbol) →
        Ends (now.turn Task.step j) j 1 thread {} .noResolver)) := by
  intro now s
  have hsound := sound_tasks_run errands schedule
  obtain ⟨hslot, hfound⟩ := Task.slots_of_returned (hsound done (List.mem_of_getElem? hdone))
    hreturned
  have hnull := hreturned.ne_null
  have hkept := slots_turn (i := j) hslot hnull
  have hnext := Crowd.getElem?_turn_self Task.step hlater
  have hchecked := Session.resolveChecked_of_slots hslot hnull hfound thread symbol
  have hbegun (found : Address) : (⟨thread, slot, found⟩ : Request).call.IsServed address :=
    ⟨rfl, Or.inl rfl⟩
  refine ⟨slots_run hslot hnull, ?_, ?_, ?_⟩
  · intro found
    have hown := Session.resolveWith_of_slots hslot hnull hfound thread symbol found
    refine ⟨congrArg Prod.fst hown, ?_, ?_⟩
    · rw [hown]
      exact Memory.statuses_setStatus _ thread .ok
    · rintro rfl
      have hrequest := Call.request_of_step
        (Call.step_spec s.memory (⟨thread, slot, found⟩ : Request).call)
      exact ends_of_isServed hkept hnull hfound hnext (congrArg Request.slot hrequest)
        (congrArg Request.thread hrequest)
        (Call.isServed_step hslot hnull hfound (hbegun found))
  · intro hresolver
    rw [if_pos hresolver] at hchecked
    refine ⟨congrArg Prod.fst hchecked, ?_, ?_⟩
    · rw [hchecked]
      exact Memory.statuses_setStatus _ thread .ok
    · rintro rfl
      obtain ⟨resolver, hinstalled⟩ := Option.isSome_iff_exists.mp hresolver
      rw [Task.step, Task.consult, hinstalled] at hnext
      exact ends_of_isServed hkept hnull hfound hnext rfl rfl (hbegun _)
  · intro hresolver
    rw [if_neg (by rw [hresolver]; exact Bool.false_ne_true)] at hchecked
    refine ⟨congrArg Prod.fst hchecked, ?_, ?_⟩
    · rw [hchecked]
      exact Memory.statuses_setStatus _ thread .noResolver
    · rintro rfl
      have hnone : s.resolver = none := by simpa using hresolver
      rw [Task.step, Task.consult, hnone] at hnext
      exact ends_of_refusing hnext

/-- The resolver is replaced by one that finds another address, and a thread that has not asked
before is still given the first one. -/
theorem served_after_replacement :
    let now := (setOut [.install (some fun _ => 4096), .resolve 1 (some "slot") (some "glFoo"),
      .install (some fun _ => 8192), .resolve 2 (some "slot") (some "glFoo")]).run Task.step
        [0, 1, 1, 1, 1, 1, 1, 2]
    now.world.resolver.isSome = true ∧
      (now.world.resolveChecked 2 (some "slot") (some "glFoo")).1 = ⟨4096, []⟩ ∧
      Ends (now.turn Task.step 3) 3 5 2 ⟨4096, []⟩ .ok := by
  intro now
  have hserved := served_of_run _ [0, 1, 1, 1, 1, 1, 1, 2] 2 "glFoo"
    (show now.agents[1]? = some (.calling (symbolOf "glFoo")
      ⟨1, "slot", 4096, .finished 4096, true⟩) from rfl)
    ⟨rfl, rfl, by decide⟩
    (show now.agents[3]? = some (.ask 2 (some "slot") (some "glFoo")) from rfl)
  obtain ⟨hgiven, -, hends⟩ := hserved.2.2.1 rfl
  exact ⟨rfl, hgiven, hends rfl⟩

/-- A slot has been resolved with an address, and the resolver is removed.  Then the slot is
resolved with nothing. -/
theorem refused_after_removal :
    let installed := ({} : Session).install (some fun _ => 4096)
    let first := installed.resolveChecked 0 (some "slot") (some "glFoo")
    let second := (first.2.install none).resolveChecked 0 (some "slot") (some "glFoo")
    first.1.address = 4096 ∧ first.2.status 0 = .ok ∧
      second.1.address ≠ 4096 ∧ second.2.status 0 ≠ .ok := by
  decide

end CallBridge.Resolution

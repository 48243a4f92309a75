import CallBridge.Proofs.Interleaving
import CallBridge.Proofs.Resolution.Steps
import CallBridge.Resolution.Session

/-!
# Calls agree

Any number of calls resolve any number of slots, in any order of their steps.  A lookup
that itself resolves slots is one of these orders: its calls take all their steps while the
outer call stays in `Phase.lookingUp` (`memory_resolveAgainst`).

* `Consistent` is what holds after every schedule, `consistent_turn` that a turn keeps it;
* `changes_slot`: a slot changes once at most, from null to what a lookup has found;
* `lookedUp_of_settled`: a call that reads a settled slot never runs its lookup;
* `isFinished_of_count`: a call is finished once it has had all its turns;
* `agreement_of_run` puts it together, with what the counters say when no call is on its
  way.
-/

namespace CallBridge.Resolution

/-- Calls that have not begun, on slots that are null. -/
def opening (statuses : Thread → Status) (requests : List Request) : Crowd Memory Call :=
  ⟨{ statuses := statuses }, requests.map Request.call⟩

/-- Every call is right about its slot, and each counter says how many have paid it. -/
structure Consistent (c : Crowd Memory Call) : Prop where
  sound : ∀ call ∈ c.agents, call.Sound c.world
  counted : c.world.indirectCalls.toNat = c.agents.countP Call.isCounted % 2 ^ 64
  lost : ∃ lost, c.world.Lost lost ∧
    (c.world.unresolvedSlots.toNat + c.agents.countP Call.owesCount) % 2 ^ 64 =
      lost.card % 2 ^ 64

variable {c : Crowd Memory Call} {slot : String}

/-! ## The invariant -/

theorem countP_opening (requests : List Request) {kind : Call → Bool}
    (hnone : ∀ r : Request, kind r.call = false) :
    (requests.map Request.call).countP kind = 0 := by
  rw [List.countP_map]
  apply List.countP_eq_zero.mpr
  intro r _
  rw [Function.comp_apply, hnone]
  exact Bool.false_ne_true

theorem consistent_opening (statuses : Thread → Status) (requests : List Request) :
    Consistent (opening statuses requests) where
  sound := by
    intro call hmem
    obtain ⟨r, -, rfl⟩ := List.mem_map.mp hmem
    exact Call.sound_call _ r
  counted := by
    rw [opening, countP_opening requests fun _ => rfl]
    rfl
  lost := by
    refine ⟨∅, fun slot => ?_, ?_⟩
    · exact iff_of_false (Finset.notMem_empty slot) unresolvable_ne_zero.symm
    · rw [opening, countP_opening requests fun _ => rfl]
      rfl

theorem sound_turn (hsound : ∀ call ∈ c.agents, call.Sound c.world) (i : Nat) :
    ∀ call ∈ (c.turn Call.step i).agents, call.Sound (c.turn Call.step i).world := by
  cases hget : c.agents[i]? with
  | none =>
    rw [Crowd.turn_of_none hget]
    exact hsound
  | some agent =>
    have hstep := Call.step_spec c.world agent
    intro call hmem
    rcases Crowd.mem_agents_turn hget hmem with hold | rfl
    · rw [Crowd.turn_of_some hget]
      exact (hsound call hold).of_slots fun _ => Call.slots_of_step_of_ne_zero hstep
    · rw [Crowd.turn_of_some hget]
      exact Call.sound_of_step hstep (hsound agent (List.mem_of_getElem? hget))

theorem counted_turn (hc : Consistent c) (i : Nat) :
    (c.turn Call.step i).world.indirectCalls.toNat =
      (c.turn Call.step i).agents.countP Call.isCounted % 2 ^ 64 := by
  have hcounted := hc.counted
  cases hget : c.agents[i]? with
  | none =>
    rw [Crowd.turn_of_none hget]
    exact hcounted
  | some agent =>
    have hstep := Call.indirectCalls_of_step (Call.step_spec c.world agent)
      (hc.sound agent (List.mem_of_getElem? hget))
    have hcount := Crowd.countP_turn Call.step hget Call.isCounted
    have hbound := (c.turn Call.step i).world.indirectCalls.toNat_lt
    rw [Crowd.turn_of_some hget] at hcount hbound ⊢
    dsimp only at hcount hbound ⊢
    omega

theorem lost_turn (hc : Consistent c) (i : Nat) :
    ∃ lost, (c.turn Call.step i).world.Lost lost ∧
      ((c.turn Call.step i).world.unresolvedSlots.toNat +
          (c.turn Call.step i).agents.countP Call.owesCount) % 2 ^ 64 =
        lost.card % 2 ^ 64 := by
  obtain ⟨lost, hlost, hcounted⟩ := hc.lost
  cases hget : c.agents[i]? with
  | none =>
    rw [Crowd.turn_of_none hget]
    exact ⟨lost, hlost, hcounted⟩
  | some agent =>
    obtain ⟨lost', hlost', hstep⟩ :=
      Call.exists_lost_of_step (Call.step_spec c.world agent) hlost
    have hcount := Crowd.countP_turn Call.step hget Call.owesCount
    rw [Crowd.turn_of_some hget] at hcount ⊢
    refine ⟨lost', hlost', ?_⟩
    dsimp only at hcount ⊢
    omega

theorem consistent_turn (hc : Consistent c) (i : Nat) : Consistent (c.turn Call.step i) :=
  ⟨sound_turn hc.sound i, counted_turn hc i, lost_turn hc i⟩

theorem consistent_run (statuses : Thread → Status) (requests : List Request)
    (schedule : List Nat) :
    Consistent ((opening statuses requests).run Call.step schedule) :=
  @Crowd.run_induction _ _ Call.step Consistent (fun _ i hc => consistent_turn hc i) schedule _
    (consistent_opening statuses requests)

/-- No call changes what it has been asked for. -/
theorem map_request_run (schedule : List Nat) :
    (c.run Call.step schedule).agents.map Call.request = c.agents.map Call.request :=
  Crowd.map_agents_run (fun m call => Call.request_of_step (Call.step_spec m call)) schedule

/-- A call that has run its lookup is found again with the same request. -/
theorem exists_call_run {i : Nat} {call : Call} (schedule : List Nat)
    (hget : c.agents[i]? = some call) (hlooked : call.lookedUp = true) :
    ∃ last, (c.run Call.step schedule).agents[i]? = some last ∧
      last.request = call.request ∧ last.lookedUp = true := by
  apply Crowd.exists_getElem?_run ?_ schedule hget ⟨rfl, hlooked⟩
  intro m agent hkeeps
  have hstep := Call.step_spec m agent
  exact ⟨(Call.request_of_step hstep).trans hkeeps.1, Call.lookedUp_of_step hstep hkeeps.2⟩

/-- A call that reads a settled slot does not run its lookup, neither at once nor later. -/
theorem lookedUp_of_settled (hsound : ∀ call ∈ c.agents, call.Sound c.world) {i : Nat}
    {call : Call} (hget : c.agents[i]? = some call) (hphase : call.phase = .reading)
    (hsettled : c.world.slots call.slot ≠ 0) (schedule : List Nat) :
    ∃ last, (c.run Call.step (i :: schedule)).agents[i]? = some last ∧
      last.phase ≠ .lookingUp ∧ last.lookedUp = false := by
  have hfresh := hsound call (List.mem_of_getElem? hget)
  rw [Call.Sound, hphase] at hfresh
  have hnext : (c.turn Call.step i).agents[i]? =
      some (call.enter (Call.settled (c.world.slots call.slot))) := by
    rw [Crowd.getElem?_turn_self Call.step hget, Call.step, hphase]
    simp only [if_neg hsettled]
  have hpast := Call.isPastLookup_settled call (c.world.slots call.slot)
  have hkeeps (m : Memory) (agent : Call)
      (hagent : agent.IsPastLookup ∧ agent.lookedUp = false) :
      (Call.step m agent).2.IsPastLookup ∧ (Call.step m agent).2.lookedUp = false := by
    obtain ⟨hnow, hsame⟩ := Call.isPastLookup_of_step (Call.step_spec m agent) hagent.1
    exact ⟨hnow, hsame.trans hagent.2⟩
  obtain ⟨last, hlast, hpast_last, hlooked⟩ :=
    Crowd.exists_getElem?_run hkeeps schedule hnext ⟨hpast, hfresh⟩
  exact ⟨last, hlast, hpast_last.2, hlooked⟩

/-! ## The history of a slot -/

theorem slots_turn_of_ne_zero (hsettled : c.world.slots slot ≠ 0) (i : Nat) :
    (c.turn Call.step i).world.slots slot = c.world.slots slot := by
  cases hget : c.agents[i]? with
  | none => rw [Crowd.turn_of_none hget]
  | some agent =>
    rw [Crowd.turn_of_some hget]
    exact Call.slots_of_step_of_ne_zero (Call.step_spec c.world agent) hsettled

/-- A slot that is settled never changes again. -/
theorem changes_slot_of_ne_zero (hsettled : c.world.slots slot ≠ 0) (schedule : List Nat) :
    c.changes Call.step (·.slots slot) schedule = [] ∧
      (c.run Call.step schedule).world.slots slot = c.world.slots slot := by
  induction schedule generalizing c with
  | nil => exact ⟨rfl, rfl⟩
  | cons i schedule ih =>
    have hsame := slots_turn_of_ne_zero hsettled i
    rw [Crowd.changes, if_pos hsame, Crowd.run_cons]
    rw [← hsame] at hsettled
    obtain ⟨hchanges, hlast⟩ := ih hsettled
    exact ⟨hchanges, hlast.trans hsame⟩

/-- A slot that is null stays null, or a call on the slot settles it, and it keeps what the
lookup of this call has found. -/
theorem changes_slot (hsound : ∀ call ∈ c.agents, call.Sound c.world)
    (hnull : c.world.slots slot = 0) (schedule : List Nat) :
    (c.changes Call.step (·.slots slot) schedule = [] ∧
      (c.run Call.step schedule).world.slots slot = 0) ∨
    ∃ i call, (c.run Call.step schedule).agents[i]? = some call ∧
      call.slot = slot ∧ call.lookedUp = true ∧
      c.changes Call.step (·.slots slot) schedule = [⟨i, 0, Call.published call.found⟩] ∧
      (c.run Call.step schedule).world.slots slot = Call.published call.found := by
  induction schedule generalizing c with
  | nil => exact Or.inl ⟨rfl, hnull⟩
  | cons i schedule ih =>
    rw [Crowd.changes, Crowd.run_cons, hnull]
    by_cases hsame : (c.turn Call.step i).world.slots slot = 0
    · rw [if_pos hsame]
      exact ih (sound_turn hsound i) hsame
    · right
      rw [if_neg hsame]
      cases hget : c.agents[i]? with
      | none =>
        rw [Crowd.turn_of_none hget] at hsame
        exact absurd hnull hsame
      | some agent =>
        have hchange : (c.turn Call.step i).world.slots slot ≠ c.world.slots slot := by
          rw [hnull]
          exact hsame
        obtain ⟨hchanges, hlast⟩ := changes_slot_of_ne_zero hsame schedule
        have hnext := Crowd.getElem?_turn_self Call.step hget
        have hstep := Call.step_spec c.world agent
        have hagent := hsound agent (List.mem_of_getElem? hget)
        have hworld : (c.turn Call.step i).world = (Call.step c.world agent).1 := by
          rw [Crowd.turn_of_some hget]
        rw [hworld] at hchange
        obtain ⟨hslot, hlooked, -, hvalue⟩ := Call.publisher_of_step hstep hagent hchange
        obtain ⟨last, hget_last, hrequest, hlooked_last⟩ := exists_call_run schedule hnext hlooked
        have hslot_last : last.slot = slot := (congrArg Request.slot hrequest).trans hslot
        have hfound : last.found = (Call.step c.world agent).2.found :=
          congrArg Request.found hrequest
        rw [← hfound, ← hworld] at hvalue
        refine ⟨i, last, hget_last, hslot_last, hlooked_last, ?_, hlast.trans hvalue⟩
        rw [hchanges, hvalue]

/-! ## Answers and counters -/

/-- A finished call answers what its slot holds. -/
theorem answer?_of_sound {m : Memory} {call : Call} (hsound : call.Sound m)
    (hfinished : call.isFinished = true) :
    m.slots call.slot ≠ 0 ∧ call.answer? = some (Call.addressOf (m.slots call.slot)) := by
  rw [Call.Sound] at hsound
  rw [Call.isFinished] at hfinished
  cases hphase : call.phase with
  | finished value =>
    rw [hphase] at hsound
    obtain ⟨hvalue, hne⟩ := hsound
    rw [Call.answer?, hphase, hvalue]
    exact ⟨hne, rfl⟩
  | _ =>
    rw [hphase] at hfinished
    exact absurd hfinished Bool.false_ne_true

/-- No call hands out null or the mark of a function that cannot be found. -/
theorem ne_of_answer? {m : Memory} {call : Call} (hsound : call.Sound m) {address : Address}
    (hanswer : call.answer? = some (some address)) : address ≠ 0 ∧ address ≠ unresolvable := by
  rw [Call.Sound] at hsound
  rw [Call.answer?] at hanswer
  cases hphase : call.phase with
  | finished value =>
    rw [hphase] at hsound hanswer
    by_cases hlost : value = unresolvable
    · simp [Call.addressOf, hlost] at hanswer
    · obtain rfl : value = address := by simpa [Call.addressOf, hlost] using hanswer
      exact ⟨hsound.2, hlost⟩
  | _ =>
    rw [hphase] at hanswer
    cases hanswer

theorem isSome_addressOf (value : Address) :
    (Call.addressOf value).isSome = (value ≠ unresolvable : Bool) := by
  rw [Call.addressOf]
  split <;> simp [*]

/-- No call is between its first step and its last. -/
def IsQuiet (c : Crowd Memory Call) : Prop :=
  ∀ call ∈ c.agents, call.phase = .reading ∨ call.isFinished = true

theorem isCounted_of_quiet {call : Call}
    (hquiet : call.phase = .reading ∨ call.isFinished = true) :
    call.isCounted = call.answer?.join.isSome := by
  rw [Call.isFinished] at hquiet
  rw [Call.isCounted, Call.answer?]
  cases hphase : call.phase with
  | finished value => exact (isSome_addressOf value).symm
  | reporting value =>
    rw [hphase] at hquiet
    exact absurd hquiet (by simp)
  | _ => rfl

theorem owesCount_of_quiet {call : Call}
    (hquiet : call.phase = .reading ∨ call.isFinished = true) : call.owesCount = false := by
  rw [Call.isFinished] at hquiet
  rw [Call.owesCount]
  cases hphase : call.phase with
  | countingUnresolved =>
    rw [hphase] at hquiet
    exact absurd hquiet (by simp)
  | _ => rfl

theorem counters_of_quiet (hc : Consistent c) (hquiet : IsQuiet c) :
    c.world.indirectCalls.toNat =
        c.agents.countP (fun call => call.answer?.join.isSome) % 2 ^ 64 ∧
      ∃ lost : Finset String, (∀ slot, slot ∈ lost ↔ c.world.slots slot = unresolvable) ∧
        c.world.unresolvedSlots.toNat = lost.card % 2 ^ 64 := by
  have hcalls : c.agents.countP (fun call => call.answer?.join.isSome) =
      c.agents.countP Call.isCounted := by
    apply List.countP_congr
    intro call hmem
    rw [isCounted_of_quiet (hquiet call hmem)]
  have howed : c.agents.countP Call.owesCount = 0 := by
    apply List.countP_eq_zero.mpr
    intro call hmem
    rw [owesCount_of_quiet (hquiet call hmem)]
    exact Bool.false_ne_true
  obtain ⟨lost, hlost, hcounted⟩ := hc.lost
  refine ⟨?_, lost, hlost, ?_⟩
  · rw [hcalls]
    exact hc.counted
  · have hbound := c.world.unresolvedSlots.toNat_lt
    rw [howed] at hcounted
    omega

/-! ## Nested lookups -/

/-- The turns of one call in a row are its steps. -/
theorem run_replicate (before after : List Call) (m : Memory) (call : Call) (n : Nat) :
    (Crowd.mk m (before ++ call :: after)).run Call.step (List.replicate n before.length) =
      ⟨(call.steps m n).1, before ++ (call.steps m n).2 :: after⟩ := by
  induction n generalizing m call with
  | zero => rfl
  | succ n ih =>
    have hget : (before ++ call :: after)[before.length]? = some call := by simp
    have hset : (before ++ call :: after).set before.length (call.step m).2 =
        before ++ (call.step m).2 :: after := by simp
    rw [List.replicate_succ, Crowd.run_cons, Crowd.turn_of_some hget, hset]
    exact ih (call.step m).1 (call.step m).2

/-- A lookup that itself resolves the slot is a schedule of two calls: the inner one takes
all its steps while the outer one is looking up. -/
theorem memory_resolveAgainst (s : Session) (thread : Thread) (slot symbol : String)
    (found rival : Address) (hnull : s.memory.slots slot = 0) :
    (s.resolveAgainst thread slot symbol found rival).2.2.memory =
      ((Crowd.mk s.memory [(Request.mk thread slot found).call,
          (Request.mk thread slot rival).call]).run Call.step
        (0 :: (List.replicate Call.stepLimit 1 ++ List.replicate Call.stepLimit 0))).world := by
  let inner := (Request.mk thread slot rival).call
  let waiting := (Request.mk thread slot found).call.enter .lookingUp
  have hbegun : (Request.mk thread slot found).call.step s.memory = (s.memory, waiting) := by
    rw [Call.step]
    exact if_pos hnull
  have hsession : (s.resolveAgainst thread slot symbol found rival).2.2.memory =
      (waiting.finish (inner.finish s.memory).1).1 := by
    rw [Request.call] at hbegun
    rw [Session.resolveAgainst, hbegun]
    rfl
  have hinner := run_replicate [waiting] [] s.memory inner Call.stepLimit
  have houter := run_replicate [] [(inner.finish s.memory).2] (inner.finish s.memory).1
    waiting Call.stepLimit
  rw [hsession, Crowd.run_cons, Crowd.turn_of_some rfl, hbegun, Crowd.run_append]
  have hrun := congrArg
    (fun c => (Crowd.run Call.step c (List.replicate Call.stepLimit 0)).world) hinner
  exact (hrun.trans (congrArg Crowd.world houter)).symm

/-! ## Turns that a call needs -/

/-- A call comes to its end in so many steps. -/
def Call.EndsWithin (count : Nat) (c : Call) : Prop :=
  Call.stepsLeft c.phase ≤ count

theorem Call.endsWithin_stepLimit (c : Call) : c.EndsWithin Call.stepLimit := by
  cases hphase : c.phase <;> simp [EndsWithin, hphase, stepsLeft, stepLimit]

theorem Call.endsWithin_step (count : Nat) (m : Memory) (c : Call) (h : c.EndsWithin count) :
    (c.step m).2.EndsWithin (count - 1) :=
  (stepsLeft_step m c).trans (Nat.sub_le_sub_right h 1)

/-- A call that has had as many turns as a call can need is finished. -/
theorem isFinished_of_count {i : Nat} {call last : Call} {schedule : List Nat}
    (hget : c.agents[i]? = some call) (hlast : (c.run Call.step schedule).agents[i]? = some last)
    (hcount : Call.stepLimit ≤ schedule.count i) : last.isFinished = true := by
  obtain ⟨found, hfound, hends⟩ :=
    Crowd.exists_getElem?_run_count Call.endsWithin_step schedule hget call.endsWithin_stepLimit
  rw [hlast, Option.some.injEq] at hfound
  rw [← hfound, Nat.sub_eq_zero_of_le hcount] at hends
  exact Call.isFinished_of_stepsLeft (Nat.le_zero.mp hends)

/-! ## Every schedule -/

/-- All calls agree, however their steps are interleaved.  A slot changes once at most, from
null to what a call on it publishes.  A finished call answers what its slot holds, and
never with null or the mark of a function that cannot be found; so calls on one slot answer
the same.  A call that reads a settled slot runs no lookup.  A call that has had its turns is
finished.  When no call is on its way, the counters say how many slots have been given up and
how many calls have been given an address. -/
theorem agreement_of_run (statuses : Thread → Status) (requests : List Request)
    (schedule : List Nat) :
    let start := opening statuses requests
    let last := start.run Call.step schedule
    last.agents.map Call.request = requests ∧
    (∀ slot,
      (start.changes Call.step (·.slots slot) schedule = [] ∧ last.world.slots slot = 0) ∨
      ∃ i call, last.agents[i]? = some call ∧ call.slot = slot ∧ call.lookedUp = true ∧
        start.changes Call.step (·.slots slot) schedule = [⟨i, 0, Call.published call.found⟩] ∧
        last.world.slots slot = Call.published call.found ∧ last.world.slots slot ≠ 0) ∧
    (∀ call ∈ last.agents, call.isFinished = true →
      last.world.slots call.slot ≠ 0 ∧
      call.answer? = some (if last.world.slots call.slot = unresolvable then none
        else some (last.world.slots call.slot))) ∧
    (∀ call ∈ last.agents, ∀ address, call.answer? = some (some address) →
      address ≠ 0 ∧ address ≠ unresolvable) ∧
    (∀ call ∈ last.agents, ∀ other ∈ last.agents, call.slot = other.slot →
      call.isFinished = true → other.isFinished = true → call.answer? = other.answer?) ∧
    (∀ first i second call, schedule = first ++ i :: second →
      (start.run Call.step first).agents[i]? = some call → call.phase = .reading →
      (start.run Call.step first).world.slots call.slot ≠ 0 →
      ∃ final, last.agents[i]? = some final ∧ final.phase ≠ .lookingUp ∧
        final.lookedUp = false) ∧
    (∀ i call, last.agents[i]? = some call → Call.stepLimit ≤ schedule.count i →
      call.isFinished = true) ∧
    (IsQuiet last →
      last.world.indirectCalls.toNat =
        last.agents.countP (fun call => call.answer?.join.isSome) % 2 ^ 64 ∧
      ∃ lost : Finset String, (∀ slot, slot ∈ lost ↔ last.world.slots slot = unresolvable) ∧
        last.world.unresolvedSlots.toNat = lost.card % 2 ^ 64) := by
  have hlast := consistent_run statuses requests schedule
  have hanswer := fun call hmem => answer?_of_sound (hlast.sound call hmem)
  refine ⟨?_, ?_, hanswer, ?_, ?_, ?_, ?_, counters_of_quiet hlast⟩
  · rw [map_request_run, opening, List.map_map]
    exact List.map_id requests
  · intro slot
    have hstart := (consistent_opening statuses requests).sound
    rcases changes_slot hstart rfl schedule with hnone | ⟨i, call, hget, h⟩
    · exact Or.inl hnone
    · obtain ⟨hslot, hlooked, hchanges, hvalue⟩ := h
      refine Or.inr ⟨i, call, hget, hslot, hlooked, hchanges, hvalue, ?_⟩
      rw [hvalue]
      exact Call.published_ne_zero call.found
  · intro call hmem address haddress
    exact ne_of_answer? (hlast.sound call hmem) haddress
  · intro call hmem other hother hslot hcall hfinished
    rw [(hanswer call hmem hcall).2, (hanswer other hother hfinished).2, hslot]
  · intro first i second call hschedule hget hphase hsettled
    have hsound := (consistent_run statuses requests first).sound
    rw [hschedule, Crowd.run_append]
    exact lookedUp_of_settled hsound hget hphase hsettled second
  · intro i call hget hcount
    have hlength := congrArg List.length
      (map_request_run (c := opening statuses requests) schedule)
    rw [List.length_map, List.length_map] at hlength
    have hlt := (List.getElem?_eq_some_iff.mp hget).1
    exact isFinished_of_count (List.getElem?_eq_getElem (hlength ▸ hlt)) hget hcount

end CallBridge.Resolution

import CallBridge.Once.Cell
import CallBridge.Proofs.Interleaving

/-!
# One initialiser at a time, and one that returns

Any number of callers try one cell, in any order of their steps, and each has an initialiser
that returns or unwinds.  The value of the cell counts the callers: it is `running` while one
of them is between the step that enters and the step that closes, and `complete` once one has
run its initialiser to the end.

* `Caller.step_spec`: the steps that there are;
* `Caller.inside_of_step` and `Caller.ran_of_step`: a step changes the cell as it changes
  the callers that the cell counts;
* `Consistent` is what holds after every schedule, `consistent_turn` that a turn keeps it;
* `complete_run`: a complete cell stays complete, and no initialiser starts;
* `run_alone`: turns of one caller only are its steps, and `finished_of_complete` and
  `finished_of_incomplete` say where they lead;
* `initialised_once_of_run` puts it together.
-/

namespace CallBridge.Once

/-- Callers that have not begun, on a cell. -/
def opening (cell : Cell) (endings : List Ending) : Crowd Cell Caller :=
  ⟨cell, endings.map fun ending => { ending := ending }⟩

namespace Caller

/-- Whether the caller is between the step that enters the cell and the step that closes
it. -/
def isInside (c : Caller) : Bool :=
  c.phase = .initialising ∨ c.phase = .closing

/-- Whether the caller has run its initialiser to the end and closed the cell. -/
def hasRun (c : Caller) : Bool :=
  c.phase = .ran

/-- Whether the initialiser of the caller has returned. -/
def hasReturned (c : Caller) : Bool :=
  c.ending = .returns ∧ (c.phase = .closing ∨ c.phase = .ran)

/-- What a caller knows when it is done. -/
def Sound (cell : Cell) (c : Caller) : Prop :=
  (c.phase = .ran → c.ending = .returns) ∧ (c.phase = .passed → cell = complete)

/-- The steps that a caller can take, and what they make of the cell and the caller. -/
inductive Step (cell : Cell) (c : Caller) : Cell → Caller → Prop where
  | enter (hphase : c.phase = .trying) (hcell : cell = incomplete) :
      Step cell c running { c with phase := .initialising }
  | pass (hphase : c.phase = .trying) (hcell : cell = complete) :
      Step cell c cell { c with phase := .passed }
  | wait (hphase : c.phase = .trying) (hcell : cell ≠ incomplete ∧ cell ≠ complete) :
      Step cell c cell c
  | initialise (hphase : c.phase = .initialising) :
      Step cell c cell { c with phase := .closing }
  | close (hphase : c.phase = .closing) (hending : c.ending = .returns) :
      Step cell c complete { c with phase := .ran }
  | reset (hphase : c.phase = .closing) (hending : c.ending = .unwinds) :
      Step cell c incomplete { c with phase := .unwound }
  | rest (hphase : c.phase = .ran ∨ c.phase = .unwound ∨ c.phase = .passed) : Step cell c cell c

theorem step_spec (cell : Cell) (c : Caller) : Step cell c (step cell c).1 (step cell c).2 := by
  obtain ⟨ending, phase⟩ := c
  unfold step
  cases phase with
  | trying =>
    by_cases hnew : cell = incomplete
    · simpa only [if_pos hnew] using Step.enter rfl hnew
    · by_cases hdone : cell = complete
      · simpa only [if_neg hnew, if_pos hdone] using Step.pass rfl hdone
      · simpa only [if_neg hnew, if_neg hdone] using Step.wait rfl ⟨hnew, hdone⟩
  | initialising => exact .initialise rfl
  | closing =>
    cases ending with
    | returns => exact .close rfl rfl
    | unwinds => exact .reset rfl rfl
  | ran => exact .rest (Or.inl rfl)
  | unwound => exact .rest (Or.inr (Or.inl rfl))
  | passed => exact .rest (Or.inr (Or.inr rfl))

theorem inside_or_ran_of_returned {c : Caller} (hreturned : c.hasReturned = true) :
    c.isInside = true ∨ c.hasRun = true := by
  obtain ⟨-, hphase | hphase⟩ := of_decide_eq_true hreturned
  · exact Or.inl (by simp [isInside, hphase])
  · exact Or.inr (by simp [hasRun, hphase])

variable {cell cell' : Cell} {c c' : Caller}

/-! ## One step -/

theorem ending_of_step (hstep : Step cell c cell' c') : c'.ending = c.ending := by
  cases hstep <;> rfl

/-- A step makes the cell running, or ceases to, as it takes the caller inside or out. -/
theorem inside_of_step (hstep : Step cell c cell' c')
    (hinside : c.isInside = true → cell = running) :
    (if cell' = running then 1 else 0) + c.isInside.toNat =
      (if cell = running then 1 else 0) + c'.isInside.toNat := by
  cases hstep with
  | enter hphase hcell => simp [isInside, hphase, hcell, incomplete, running]
  | pass hphase hcell => simp [isInside, hphase]
  | wait hphase hcell => rfl
  | initialise hphase => simp [isInside, hphase]
  | close hphase hending =>
    have hcell : cell = running := hinside (by simp [isInside, hphase])
    simp [isInside, hphase, hcell, complete, running]
  | reset hphase hending =>
    have hcell : cell = running := hinside (by simp [isInside, hphase])
    simp [isInside, hphase, hcell, incomplete, running]
  | rest hphase => rfl

/-- A step makes the cell complete as the caller has run. -/
theorem ran_of_step (hstep : Step cell c cell' c')
    (hinside : c.isInside = true → cell = running) :
    (if cell' = complete then 1 else 0) + c.hasRun.toNat =
      (if cell = complete then 1 else 0) + c'.hasRun.toNat := by
  cases hstep with
  | enter hphase hcell => simp [hasRun, hphase, hcell, incomplete, complete, running]
  | pass hphase hcell => simp [hasRun, hphase]
  | wait hphase hcell => rfl
  | initialise hphase => simp [hasRun, hphase]
  | close hphase hending =>
    have hcell : cell = running := hinside (by simp [isInside, hphase])
    simp [hasRun, hphase, hcell, complete, running]
  | reset hphase hending =>
    have hcell : cell = running := hinside (by simp [isInside, hphase])
    simp [hasRun, hphase, hcell, incomplete, complete, running]
  | rest hphase => rfl

theorem cell_of_step (hstep : Step cell c cell' c')
    (hcell : cell = incomplete ∨ cell = running ∨ cell = complete) :
    cell' = incomplete ∨ cell' = running ∨ cell' = complete := by
  cases hstep with
  | enter => exact Or.inr (Or.inl rfl)
  | close => exact Or.inr (Or.inr rfl)
  | reset => exact Or.inl rfl
  | _ => exact hcell

/-- A caller that is not inside leaves a complete cell as it is, and does not start its
initialiser. -/
theorem complete_of_step (hstep : Step cell c cell' c') (hcell : cell = complete)
    (houtside : c.isInside = false) :
    cell' = complete ∧ c'.isInside = false ∧ c'.hasStarted = c.hasStarted := by
  cases hstep with
  | enter hphase hnew =>
    rw [hcell] at hnew
    exact absurd hnew (by decide)
  | pass hphase hdone => exact ⟨hcell, by simp [isInside], by simp [hasStarted, hphase]⟩
  | wait hphase hbusy => exact absurd hcell hbusy.2
  | initialise hphase => simp [isInside, hphase] at houtside
  | close hphase hending => simp [isInside, hphase] at houtside
  | reset hphase hending => simp [isInside, hphase] at houtside
  | rest hphase => exact ⟨hcell, houtside, rfl⟩

theorem sound_of_step (hstep : Step cell c cell' c') (hsound : Sound cell c) :
    Sound cell' c' := by
  cases hstep with
  | enter hphase hcell => exact ⟨nofun, nofun⟩
  | pass hphase hcell => exact ⟨nofun, fun _ => hcell⟩
  | wait hphase hcell => exact hsound
  | initialise hphase => exact ⟨nofun, nofun⟩
  | close hphase hending => exact ⟨fun _ => hending, nofun⟩
  | reset hphase hending => exact ⟨nofun, nofun⟩
  | rest hphase => exact hsound

end Caller

/-! ## The invariant -/

/-- The cell says how many callers are inside, and how many have run. -/
structure Consistent (c : Crowd Cell Caller) : Prop where
  cell : c.world = incomplete ∨ c.world = running ∨ c.world = complete
  inside : c.agents.countP Caller.isInside = if c.world = running then 1 else 0
  ran : c.agents.countP Caller.hasRun = if c.world = complete then 1 else 0
  sound : ∀ caller ∈ c.agents, caller.Sound c.world

variable {c : Crowd Cell Caller} {i : Nat} {caller : Caller}

theorem Consistent.running_of_inside (hc : Consistent c) (hmem : caller ∈ c.agents)
    (hinside : caller.isInside = true) : c.world = running := by
  have hpos := List.countP_pos_iff.mpr ⟨caller, hmem, hinside⟩
  have hcount := hc.inside
  by_cases hrunning : c.world = running
  · exact hrunning
  · rw [if_neg hrunning] at hcount
    omega

theorem Consistent.outside_of_complete (hc : Consistent c) (hcomplete : c.world = complete) :
    ∀ caller ∈ c.agents, caller.isInside = false := by
  intro caller hmem
  cases hinside : caller.isInside with
  | false => rfl
  | true =>
    have hrunning := hc.running_of_inside hmem hinside
    rw [hcomplete] at hrunning
    exact absurd hrunning (by decide)

theorem consistent_opening (endings : List Ending) :
    Consistent (opening incomplete endings) where
  cell := Or.inl rfl
  inside := by
    rw [opening, List.countP_map]
    exact List.countP_eq_zero.mpr fun _ _ => Bool.false_ne_true
  ran := by
    rw [opening, List.countP_map]
    exact List.countP_eq_zero.mpr fun _ _ => Bool.false_ne_true
  sound := by
    intro caller hmem
    obtain ⟨ending, -, rfl⟩ := List.mem_map.mp hmem
    exact ⟨nofun, nofun⟩

theorem sound_turn (hc : Consistent c) (hget : c.agents[i]? = some caller) :
    ∀ other ∈ (c.turn Caller.step i).agents, other.Sound (c.turn Caller.step i).world := by
  have hstep := Caller.step_spec c.world caller
  have hmem := List.mem_of_getElem? hget
  intro other hother
  rcases Crowd.mem_agents_turn hget hother with hold | rfl
  · have hsound := hc.sound other hold
    rw [Crowd.turn_of_some hget]
    refine ⟨hsound.1, fun hphase => ?_⟩
    have hcomplete := hsound.2 hphase
    have houtside := hc.outside_of_complete hcomplete caller hmem
    exact (Caller.complete_of_step hstep hcomplete houtside).1
  · rw [Crowd.turn_of_some hget]
    exact Caller.sound_of_step hstep (hc.sound caller hmem)

theorem consistent_turn (hc : Consistent c) (i : Nat) : Consistent (c.turn Caller.step i) := by
  cases hget : c.agents[i]? with
  | none =>
    rw [Crowd.turn_of_none hget]
    exact hc
  | some caller =>
    have hstep := Caller.step_spec c.world caller
    have hrunning := hc.running_of_inside (List.mem_of_getElem? hget)
    have hinside := Crowd.countP_turn Caller.step hget Caller.isInside
    have hran := Crowd.countP_turn Caller.step hget Caller.hasRun
    have hstep_inside := Caller.inside_of_step hstep hrunning
    have hstep_ran := Caller.ran_of_step hstep hrunning
    have hworld : (c.turn Caller.step i).world = (Caller.step c.world caller).1 := by
      rw [Crowd.turn_of_some hget]
    refine ⟨?_, ?_, ?_, sound_turn hc hget⟩
    · rw [hworld]
      exact Caller.cell_of_step hstep hc.cell
    · have hbefore := hc.inside
      rw [hworld]
      omega
    · have hbefore := hc.ran
      rw [hworld]
      omega

theorem consistent_run (endings : List Ending) (schedule : List Nat) :
    Consistent ((opening incomplete endings).run Caller.step schedule) :=
  @Crowd.run_induction _ _ Caller.step Consistent (fun _ i hc => consistent_turn hc i)
    schedule _ (consistent_opening endings)

theorem map_ending_run (schedule : List Nat) :
    (c.run Caller.step schedule).agents.map Caller.ending = c.agents.map Caller.ending :=
  Crowd.map_agents_run
    (fun cell caller => Caller.ending_of_step (Caller.step_spec cell caller)) schedule

/-! ## Complete cells -/

theorem complete_turn (hcomplete : c.world = complete)
    (houtside : ∀ caller ∈ c.agents, caller.isInside = false) (i : Nat) :
    (c.turn Caller.step i).world = complete ∧
      (∀ caller ∈ (c.turn Caller.step i).agents, caller.isInside = false) ∧
      (c.turn Caller.step i).agents.map Caller.hasStarted = c.agents.map Caller.hasStarted := by
  have hstep (caller : Caller) (hmem : caller ∈ c.agents) :=
    Caller.complete_of_step (Caller.step_spec c.world caller) hcomplete (houtside caller hmem)
  refine ⟨?_, ?_, Crowd.map_agents_turn (fun caller hmem => (hstep caller hmem).2.2) i⟩
  · cases hget : c.agents[i]? with
    | none =>
      rw [Crowd.turn_of_none hget]
      exact hcomplete
    | some caller =>
      rw [Crowd.turn_of_some hget]
      exact (hstep caller (List.mem_of_getElem? hget)).1
  · cases hget : c.agents[i]? with
    | none =>
      rw [Crowd.turn_of_none hget]
      exact houtside
    | some caller =>
      intro other hother
      rcases Crowd.mem_agents_turn hget hother with hold | rfl
      · exact houtside other hold
      · exact (hstep caller (List.mem_of_getElem? hget)).2.1

/-- A complete cell stays complete, and no initialiser starts. -/
theorem complete_run (hcomplete : c.world = complete)
    (houtside : ∀ caller ∈ c.agents, caller.isInside = false) (schedule : List Nat) :
    (c.run Caller.step schedule).world = complete ∧
      (c.run Caller.step schedule).agents.map Caller.hasStarted =
        c.agents.map Caller.hasStarted := by
  induction schedule generalizing c with
  | nil => exact ⟨hcomplete, rfl⟩
  | cons i schedule ih =>
    obtain ⟨hworld, hagents, hstarted⟩ := complete_turn hcomplete houtside i
    obtain ⟨hlast, hsame⟩ := ih hworld hagents
    exact ⟨hlast, hsame.trans hstarted⟩

/-! ## Who has run -/

theorem running_iff (hc : Consistent c) :
    c.world = running ↔ c.agents.countP Caller.isInside = 1 := by
  have hinside := hc.inside
  constructor
  · intro hrunning
    rwa [if_pos hrunning] at hinside
  · intro hone
    by_cases hrunning : c.world = running
    · exact hrunning
    · rw [if_neg hrunning] at hinside
      omega

theorem countP_initialising_le (hc : Consistent c) :
    c.agents.countP (fun caller => caller.phase = .initialising) ≤ 1 := by
  have hmono : c.agents.countP (fun caller => caller.phase = .initialising) ≤
      c.agents.countP Caller.isInside := by
    apply List.countP_mono_left
    intro caller _ hphase
    simp [Caller.isInside, of_decide_eq_true hphase]
  have hinside := hc.inside
  split at hinside <;> omega

/-- At most one initialiser has returned: its caller is about to close the cell, or has closed
it. -/
theorem countP_hasReturned_le (hc : Consistent c) :
    c.agents.countP Caller.hasReturned ≤ 1 := by
  have hinside := hc.inside
  have hran := hc.ran
  by_cases hcomplete : c.world = complete
  · have hmono : c.agents.countP Caller.hasReturned ≤ c.agents.countP Caller.hasRun := by
      apply List.countP_mono_left
      intro caller hmem hreturned
      have houtside := hc.outside_of_complete hcomplete caller hmem
      rcases Caller.inside_or_ran_of_returned hreturned with hinside | hran
      · exact absurd (houtside.symm.trans hinside) Bool.false_ne_true
      · exact hran
    rw [if_pos hcomplete] at hran
    omega
  · have hmono : c.agents.countP Caller.hasReturned ≤ c.agents.countP Caller.isInside := by
      rw [if_neg hcomplete] at hran
      apply List.countP_mono_left
      intro caller hmem hreturned
      have hnot := List.countP_eq_zero.mp hran caller hmem
      exact (Caller.inside_or_ran_of_returned hreturned).resolve_right hnot
    split at hinside <;> omega

theorem hasRun_eq_answer? (caller : Caller) :
    caller.hasRun = (caller.answer? = some true : Bool) := by
  obtain ⟨ending, phase⟩ := caller
  cases phase <;> rfl

theorem countP_answer?_le (hc : Consistent c) :
    c.agents.countP (fun caller => caller.answer? = some true) ≤ 1 := by
  have heq : c.agents.countP (fun caller => caller.answer? = some true) =
      c.agents.countP Caller.hasRun := by
    apply List.countP_congr
    intro caller _
    rw [hasRun_eq_answer?]
  have hran := hc.ran
  rw [heq]
  split at hran <;> omega

theorem hasReturned_of_hasRun (hc : Consistent c) (hmem : caller ∈ c.agents)
    (hran : caller.hasRun = true) : caller.hasReturned = true := by
  have hphase : caller.phase = .ran := of_decide_eq_true hran
  simp [Caller.hasReturned, hphase, (hc.sound caller hmem).1 hphase]

/-- A caller passes only when the initialiser of another one has returned. -/
theorem exists_hasReturned_of_passed (hc : Consistent c) (hmem : caller ∈ c.agents)
    (hphase : caller.phase = .passed) : ∃ other ∈ c.agents, other.hasReturned = true := by
  have hran := hc.ran
  rw [if_pos ((hc.sound caller hmem).2 hphase)] at hran
  have hpos : 0 < c.agents.countP Caller.hasRun := by omega
  obtain ⟨other, hother, hother_ran⟩ := List.countP_pos_iff.mp hpos
  exact ⟨other, hother, hasReturned_of_hasRun hc hother hother_ran⟩

theorem phase_of_answer?_false (h : caller.answer? = some false) : caller.phase = .passed := by
  obtain ⟨ending, phase⟩ := caller
  cases phase <;> first | rfl | exact absurd h nofun

/-! ## Unwinding -/

/-- A caller whose initialiser unwinds reopens the cell. -/
theorem world_turn_of_unwinds (hget : c.agents[i]? = some caller)
    (hphase : caller.phase = .closing) (hending : caller.ending = .unwinds) :
    (c.turn Caller.step i).world = incomplete := by
  rw [Crowd.turn_of_some hget, Caller.step, hphase]
  simp only [hending]

/-- A caller that tries an incomplete cell starts its initialiser. -/
theorem getElem?_turn_of_incomplete (hcell : c.world = incomplete)
    (hget : c.agents[i]? = some caller) (hphase : caller.phase = .trying) :
    (c.turn Caller.step i).agents[i]? = some { caller with phase := .initialising } := by
  rw [Crowd.getElem?_turn_self Caller.step hget, Caller.step, hphase]
  simp only [if_pos hcell]

/-! ## Turns of one caller -/

/-- Turns that one caller has one after the other are its steps. -/
theorem run_alone (hget : c.agents[i]? = some caller) (count : Nat) :
    (c.run Caller.step (List.replicate count i)).world = (caller.steps c.world count).1 ∧
      (c.run Caller.step (List.replicate count i)).agents[i]? =
        some (caller.steps c.world count).2 := by
  induction count generalizing c caller with
  | zero => exact ⟨rfl, hget⟩
  | succ count ih =>
    have hturn := ih (Crowd.getElem?_turn_self Caller.step hget)
    rw [Crowd.turn_of_some hget] at hturn
    rw [List.replicate_succ, Crowd.run_cons, Crowd.turn_of_some hget]
    exact hturn

/-- A caller that tries a complete cell passes by its own turns. -/
theorem finished_of_complete (hget : c.agents[i]? = some caller) (hphase : caller.phase = .trying)
    (hcell : c.world = complete) :
    let alone := c.run Caller.step (List.replicate Caller.stepLimit i)
    alone.world = complete ∧ alone.agents[i]? = some { caller with phase := .passed } := by
  obtain ⟨ending, phase⟩ := caller
  cases hphase
  have halone := run_alone hget Caller.stepLimit
  rwa [hcell, ← Caller.finish, Caller.finish_complete] at halone

/-- A caller that tries an incomplete cell runs its initialiser to the end by its own turns. -/
theorem finished_of_incomplete (hget : c.agents[i]? = some caller)
    (hphase : caller.phase = .trying) (hcell : c.world = incomplete) :
    let alone := c.run Caller.step (List.replicate Caller.stepLimit i)
    match caller.ending with
    | .returns => alone.world = complete ∧ alone.agents[i]? = some { caller with phase := .ran }
    | .unwinds =>
      alone.world = incomplete ∧ alone.agents[i]? = some { caller with phase := .unwound } := by
  obtain ⟨ending, phase⟩ := caller
  cases hphase
  have halone := run_alone hget Caller.stepLimit
  cases ending with
  | returns => rwa [hcell, ← Caller.finish, Caller.finish_incomplete_returns] at halone
  | unwinds => rwa [hcell, ← Caller.finish, Caller.finish_incomplete_unwinds] at halone

/-! ## Every schedule -/

/-- A cell that starts incomplete is initialised once.  It is running exactly while one caller
is inside, and then no other is; at most one initialiser returns, and only its call says that
it ran.  A call says that it did not run its initialiser only after another one has returned.
An initialiser that unwinds reopens the cell for the callers that try.  A caller that tries
while no other is inside comes to its end by its own turns: it passes a complete cell, and it
runs its initialiser on an incomplete one.  A complete cell stays complete, and no initialiser
starts any more; one that starts complete starts none at all. -/
theorem initialised_once_of_run (endings : List Ending) (schedule : List Nat) :
    let last := (opening incomplete endings).run Caller.step schedule
    last.agents.map Caller.ending = endings ∧
    (last.world = incomplete ∨ last.world = running ∨ last.world = complete) ∧
    (last.world = running ↔ last.agents.countP Caller.isInside = 1) ∧
    last.agents.countP (fun caller => caller.phase = .initialising) ≤ 1 ∧
    last.agents.countP Caller.hasReturned ≤ 1 ∧
    last.agents.countP (fun caller => caller.answer? = some true) ≤ 1 ∧
    (∀ caller ∈ last.agents, caller.answer? = some true → caller.hasReturned = true) ∧
    (∀ caller ∈ last.agents, caller.answer? = some false →
      ∃ other ∈ last.agents, other.hasReturned = true) ∧
    (∀ i caller, last.agents[i]? = some caller → caller.phase = .closing →
      caller.ending = .unwinds →
      (last.turn Caller.step i).world = incomplete ∧
      ∀ j other, (last.turn Caller.step i).agents[j]? = some other → other.phase = .trying →
        ((last.turn Caller.step i).turn Caller.step j).agents[j]? =
          some { other with phase := .initialising }) ∧
    (∀ i caller, last.agents[i]? = some caller → caller.phase = .trying →
      let alone := last.run Caller.step (List.replicate Caller.stepLimit i)
      (last.world = complete →
        alone.world = complete ∧ alone.agents[i]? = some { caller with phase := .passed }) ∧
      (last.world = incomplete →
        match caller.ending with
        | .returns =>
          alone.world = complete ∧ alone.agents[i]? = some { caller with phase := .ran }
        | .unwinds =>
          alone.world = incomplete ∧
            alone.agents[i]? = some { caller with phase := .unwound })) ∧
    (last.world = complete → ∀ rest,
      (last.run Caller.step rest).world = complete ∧
      (last.run Caller.step rest).agents.map Caller.hasStarted =
        last.agents.map Caller.hasStarted) ∧
    ((opening complete endings).run Caller.step schedule).world = complete ∧
    ∀ caller ∈ ((opening complete endings).run Caller.step schedule).agents,
      caller.hasStarted = false := by
  have hc := consistent_run endings schedule
  refine ⟨?_, hc.cell, running_iff hc, countP_initialising_le hc, countP_hasReturned_le hc,
    countP_answer?_le hc, ?_, ?_, ?_, ?_, ?_, ?_⟩
  · rw [map_ending_run, opening, List.map_map]
    exact List.map_id endings
  · intro caller hmem hanswer
    apply hasReturned_of_hasRun hc hmem
    rw [hasRun_eq_answer?, hanswer]
    rfl
  · intro caller hmem hanswer
    exact exists_hasReturned_of_passed hc hmem (phase_of_answer?_false hanswer)
  · intro i caller hget hphase hending
    have hcell := world_turn_of_unwinds hget hphase hending
    exact ⟨hcell, fun j other => getElem?_turn_of_incomplete hcell⟩
  · intro i caller hget hphase
    exact ⟨finished_of_complete hget hphase, finished_of_incomplete hget hphase⟩
  · intro hcomplete
    exact complete_run hcomplete (hc.outside_of_complete hcomplete)
  · have houtside : ∀ caller ∈ (opening complete endings).agents, caller.isInside = false := by
      intro caller hmem
      obtain ⟨ending, -, rfl⟩ := List.mem_map.mp hmem
      rfl
    obtain ⟨hworld, hstarted⟩ := complete_run rfl houtside schedule
    refine ⟨hworld, fun caller hmem => ?_⟩
    have hin : caller.hasStarted ∈ _ := List.mem_map_of_mem hmem
    rw [hstarted, opening, List.map_map] at hin
    obtain ⟨ending, -, heq⟩ := List.mem_map.mp hin
    exact heq.symm

end CallBridge.Once

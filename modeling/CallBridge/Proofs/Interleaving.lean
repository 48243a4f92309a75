import CallBridge.Interleaving

/-!
# What a turn leaves as it is

An agent that has its turn changes the world and itself, and no other agent.  An
invariant of an interleaving is carried over a turn by one of these lemmas:

* `Crowd.mem_agents_turn`: every agent is an old one, or the one that took the step;
* `Crowd.countP_turn`: a number of agents changes by what the step changes;
* `Crowd.map_agents_run` and `Crowd.exists_getElem?_run`: what no step changes of an
  agent stays as it is in every schedule;
* `Crowd.exists_getElem?_run_count`: what every step of an agent brings it nearer to.

`Crowd.changes` is the history of a part of the world: each change that a schedule makes
to it, with the agent that made it.
-/

namespace CallBridge.Crowd

variable {World Agent : Type} {step : World → Agent → World × Agent} {c : Crowd World Agent}
  {i : Nat} {agent : Agent}

/-! ## One turn -/

theorem turn_of_none (h : c.agents[i]? = none) : c.turn step i = c := by
  rw [turn, h]

theorem turn_of_some (h : c.agents[i]? = some agent) :
    c.turn step i = ⟨(step c.world agent).1, c.agents.set i (step c.world agent).2⟩ := by
  rw [turn, h]

variable (step) in
theorem getElem?_turn_self (h : c.agents[i]? = some agent) :
    (c.turn step i).agents[i]? = some (step c.world agent).2 := by
  obtain ⟨hlt, -⟩ := List.getElem?_eq_some_iff.mp h
  rw [turn_of_some h, List.getElem?_set_self hlt]

theorem getElem?_turn_of_ne {j : Nat} (hne : i ≠ j) :
    (c.turn step i).agents[j]? = c.agents[j]? := by
  cases h : c.agents[i]? with
  | none => rw [turn_of_none h]
  | some agent => rw [turn_of_some h, List.getElem?_set_ne hne]

/-- After a turn an agent is an old one, or the one that took the step. -/
theorem mem_agents_turn (h : c.agents[i]? = some agent) {other : Agent}
    (hmem : other ∈ (c.turn step i).agents) :
    other ∈ c.agents ∨ other = (step c.world agent).2 := by
  rw [turn_of_some h] at hmem
  exact List.mem_or_eq_of_mem_set hmem

variable (step) in
/-- How the number of agents of a kind changes in a turn. -/
theorem countP_turn (h : c.agents[i]? = some agent) (kind : Agent → Bool) :
    (c.turn step i).agents.countP kind + (kind agent).toNat =
      c.agents.countP kind + (kind (step c.world agent).2).toNat := by
  obtain ⟨hlt, hget⟩ := List.getElem?_eq_some_iff.mp h
  have hself : (kind agent).toNat ≤ c.agents.countP kind := by
    cases hkind : kind agent with
    | false => exact Nat.zero_le _
    | true => exact List.countP_pos_iff.mpr ⟨agent, List.mem_of_getElem? h, hkind⟩
  rw [turn_of_some h]
  show (c.agents.set i _).countP kind + _ = _
  rw [List.countP_set hlt, hget]
  cases hold : kind agent <;> cases hnew : kind (step c.world agent).2 <;>
    simp only [hold, Bool.toNat_true, Bool.toNat_false] at hself ⊢ <;> simp <;> omega

/-- What no step changes of an agent stays the same in a turn. -/
theorem map_agents_turn {Value : Type} {value : Agent → Value}
    (h : ∀ agent ∈ c.agents, value (step c.world agent).2 = value agent) (i : Nat) :
    (c.turn step i).agents.map value = c.agents.map value := by
  cases hget : c.agents[i]? with
  | none => rw [turn_of_none hget]
  | some agent =>
    obtain ⟨hlt, hself⟩ := List.getElem?_eq_some_iff.mp hget
    rw [turn_of_some hget, List.map_set, h agent (List.mem_of_getElem? hget), ← List.map_set,
      ← hself, List.set_getElem_self]

/-! ## A schedule -/

/-- What no step changes of an agent stays the same in every schedule. -/
theorem map_agents_run {Value : Type} {value : Agent → Value}
    (h : ∀ world agent, value (step world agent).2 = value agent) (schedule : List Nat) :
    (c.run step schedule).agents.map value = c.agents.map value := by
  induction schedule generalizing c with
  | nil => rfl
  | cons i schedule ih =>
    rw [run_cons, ih]
    exact map_agents_turn (fun agent _ => h c.world agent) i

/-- What an agent keeps in its own steps it keeps in every schedule. -/
theorem exists_getElem?_run {keeps : Agent → Prop}
    (hstep : ∀ world agent, keeps agent → keeps (step world agent).2)
    (schedule : List Nat) (h : c.agents[i]? = some agent) (hkeeps : keeps agent) :
    ∃ last, (c.run step schedule).agents[i]? = some last ∧ keeps last := by
  induction schedule generalizing c agent with
  | nil => exact ⟨agent, h, hkeeps⟩
  | cons j schedule ih =>
    rw [run_cons]
    by_cases hji : j = i
    · subst hji
      exact ih (getElem?_turn_self step h) (hstep c.world agent hkeeps)
    · exact ih ((getElem?_turn_of_ne hji).trans h) hkeeps

/-- What an agent comes nearer to in each of its own turns it comes nearer to in every
schedule, by as many turns as it has. -/
theorem exists_getElem?_run_count {keeps : Nat → Agent → Prop}
    (hstep : ∀ n world agent, keeps n agent → keeps (n - 1) (step world agent).2)
    (schedule : List Nat) (h : c.agents[i]? = some agent) {n : Nat} (hkeeps : keeps n agent) :
    ∃ last, (c.run step schedule).agents[i]? = some last ∧
      keeps (n - schedule.count i) last := by
  induction schedule generalizing c agent n with
  | nil => exact ⟨agent, h, hkeeps⟩
  | cons j schedule ih =>
    rw [run_cons]
    by_cases hji : j = i
    · subst hji
      rw [List.count_cons_self, Nat.add_comm, Nat.sub_add_eq]
      exact ih (getElem?_turn_self step h) (hstep n c.world agent hkeeps)
    · rw [List.count_cons_of_ne hji]
      exact ih ((getElem?_turn_of_ne hji).trans h) hkeeps

/-- A change of a part of the world, and the agent that made it. -/
structure Change (Value : Type) where
  agent : Nat
  before : Value
  after : Value
  deriving DecidableEq, Repr

/-- The changes that the turns of a schedule make to a part of the world. -/
def changes {Value : Type} [DecidableEq Value] (step : World → Agent → World × Agent)
    (part : World → Value) (c : Crowd World Agent) : List Nat → List (Change Value)
  | [] => []
  | i :: schedule =>
    let next := c.turn step i
    if part next.world = part c.world then changes step part next schedule
    else ⟨i, part c.world, part next.world⟩ :: changes step part next schedule

end CallBridge.Crowd

import CallBridge.Resolution.Call
import Mathlib.Algebra.Group.Nat.Defs
import Mathlib.Data.Finset.Card
import Mathlib.Data.Finset.Insert

/-!
# What one step of a call does

`Call.Sound` says what a call knows in each of its phases: from the moment on at which it
has seen its slot settled, the slot has the value that the call carries.  No call can break
this for another one, because a slot that is settled stays as it is.

* `Call.step_spec`: the steps that there are;
* `Call.slots_of_step`: a step changes a slot only from null, and only by publishing;
* `Call.sound_of_step`: a step keeps the call sound;
* `Call.indirectCalls_of_step` and `Call.exists_lost_of_step`: what a step does to the two
  counters.
-/

namespace CallBridge.Resolution

theorem unresolvable_ne_zero : unresolvable ≠ 0 := by
  decide

/-- What a caller asks for: a slot to be resolved for a thread, with a lookup that finds an
address if it runs. -/
structure Request where
  thread : Thread
  slot : String
  found : Address
  deriving DecidableEq, Repr

/-- The call that a caller begins. -/
def Request.call (r : Request) : Call where
  thread := r.thread
  slot := r.slot
  found := r.found

namespace Memory

/-- The slots that are settled without an address are these. -/
def Lost (m : Memory) (lost : Finset String) : Prop :=
  ∀ slot, slot ∈ lost ↔ m.slots slot = unresolvable

/-- A slot that is given up is one more that is lost. -/
theorem Lost.insert {m : Memory} {lost : Finset String} (hlost : Lost m lost) (slot : String) :
    Lost (m.setSlot slot unresolvable) (Insert.insert slot lost) := by
  intro other
  rw [Finset.mem_insert]
  by_cases heq : other = slot
  · rw [heq, Memory.slots_setSlot]
    exact iff_of_true (Or.inl rfl) rfl
  · rw [Memory.slots_setSlot_of_ne m unresolvable heq, or_iff_right heq]
    exact hlost other

/-- A slot that is given an address is not one that is lost. -/
theorem Lost.setSlot {m : Memory} {lost : Finset String} (hlost : Lost m lost)
    {slot : String} {value : Address} (hbefore : m.slots slot ≠ unresolvable) (hne : value ≠ unresolvable) :
    Lost (m.setSlot slot value) lost := by
  intro other
  by_cases heq : other = slot
  · rw [heq, Memory.slots_setSlot]
    exact iff_of_false (fun hmem => hbefore ((hlost slot).mp hmem)) hne
  · rw [Memory.slots_setSlot_of_ne m value heq]
    exact hlost other

end Memory

namespace Call

/-- What the caller has asked for. -/
def request (c : Call) : Request :=
  ⟨c.thread, c.slot, c.found⟩

/-- Whether the call has counted itself as one that is given an address. -/
def isCounted (c : Call) : Bool :=
  match c.phase with
  | .reporting value => value ≠ unresolvable
  | .finished value => value ≠ unresolvable
  | _ => false

/-- Whether the call has settled its slot without an address and not counted that yet. -/
def owesCount (c : Call) : Bool :=
  c.phase = .countingUnresolved

/-- What a call knows of its slot and its lookup. -/
def Sound (m : Memory) (c : Call) : Prop :=
  match c.phase with
  | .reading => c.lookedUp = false
  | .lookingUp => c.lookedUp = false
  | .publishing value => c.lookedUp = true ∧ value = published c.found
  | .countingUnresolved => m.slots c.slot = unresolvable
  | .countingCall value => m.slots c.slot = value ∧ value ≠ 0 ∧ value ≠ unresolvable
  | .reporting value => m.slots c.slot = value ∧ value ≠ 0
  | .finished value => m.slots c.slot = value ∧ value ≠ 0

/-- The steps that a call can take, and what they make of the memory and the call. -/
inductive Step (m : Memory) (c : Call) : Memory → Call → Prop where
  | seeNull (hphase : c.phase = .reading) (hnull : m.slots c.slot = 0) :
      Step m c m (c.enter .lookingUp)
  | seeSettled (hphase : c.phase = .reading) (hsettled : m.slots c.slot ≠ 0) :
      Step m c m (c.enter (settled (m.slots c.slot)))
  | lookUp (hphase : c.phase = .lookingUp) :
      Step m c m { c with phase := .publishing (published c.found), lookedUp := true }
  | publish {value : Address} (hphase : c.phase = .publishing value)
      (hnull : m.slots c.slot = 0) :
      Step m c (m.setSlot c.slot value)
        (c.enter (if value = unresolvable then .countingUnresolved else .countingCall value))
  | adopt {value : Address} (hphase : c.phase = .publishing value)
      (hsettled : m.slots c.slot ≠ 0) :
      Step m c m (c.enter (settled (m.slots c.slot)))
  | countUnresolved (hphase : c.phase = .countingUnresolved) :
      Step m c m.countUnresolved (c.enter (.reporting unresolvable))
  | countCall {value : Address} (hphase : c.phase = .countingCall value) :
      Step m c m.countCall (c.enter (.reporting value))
  | report {value : Address} (hphase : c.phase = .reporting value) :
      Step m c (m.setStatus c.thread (if value = unresolvable then .unresolved else .ok))
        (c.enter (.finished value))
  | rest {value : Address} (hphase : c.phase = .finished value) : Step m c m c

theorem step_spec (m : Memory) (c : Call) : Step m c (step m c).1 (step m c).2 := by
  unfold step
  cases hphase : c.phase with
  | reading =>
    by_cases hnull : m.slots c.slot = 0
    · simpa only [if_pos hnull] using Step.seeNull hphase hnull
    · simpa only [if_neg hnull] using Step.seeSettled hphase hnull
  | lookingUp => exact .lookUp hphase
  | publishing value =>
    by_cases hnull : m.slots c.slot = 0
    · simpa only [if_pos hnull] using Step.publish hphase hnull
    · simpa only [if_neg hnull] using Step.adopt hphase hnull
  | countingUnresolved => exact .countUnresolved hphase
  | countingCall value => exact .countCall hphase
  | reporting value => exact .report hphase
  | finished value => exact .rest hphase

variable {m m' : Memory} {c c' : Call}

/-! ## Slots and requests -/

theorem request_of_step (hstep : Step m c m' c') : c'.request = c.request := by
  cases hstep <;> rfl

theorem lookedUp_of_step (hstep : Step m c m' c') (hlooked : c.lookedUp = true) :
    c'.lookedUp = true := by
  cases hstep with
  | lookUp hphase => rfl
  | _ => exact hlooked

/-- A step leaves the slots as they are, unless it publishes to a slot that is null. -/
theorem slots_of_step (hstep : Step m c m' c') :
    m'.slots = m.slots ∨
      ∃ value, c.phase = .publishing value ∧ m.slots c.slot = 0 ∧
        m' = m.setSlot c.slot value := by
  cases hstep with
  | publish hphase hnull => exact Or.inr ⟨_, hphase, hnull, rfl⟩
  | _ => exact Or.inl rfl

/-- A slot that is settled stays as it is. -/
theorem slots_of_step_of_ne_zero (hstep : Step m c m' c') {slot : String}
    (hsettled : m.slots slot ≠ 0) : m'.slots slot = m.slots slot := by
  rcases slots_of_step hstep with hsame | ⟨value, -, hnull, rfl⟩
  · rw [hsame]
  · have hne : slot ≠ c.slot := by
      rintro rfl
      exact hsettled hnull
    exact Memory.slots_setSlot_of_ne m value hne

/-- The call has seen its slot settled, or has a value to publish, so that it has no lookup
to run any more. -/
def IsPastLookup (c : Call) : Prop :=
  c.phase ≠ .reading ∧ c.phase ≠ .lookingUp

theorem isPastLookup_settled (c : Call) (value : Address) :
    (c.enter (settled value)).IsPastLookup := by
  unfold settled
  split <;> exact ⟨nofun, nofun⟩

/-- A call that has no lookup to run does not run one. -/
theorem isPastLookup_of_step (hstep : Step m c m' c') (hpast : c.IsPastLookup) :
    c'.IsPastLookup ∧ c'.lookedUp = c.lookedUp := by
  cases hstep with
  | seeNull hphase hnull => exact absurd hphase hpast.1
  | seeSettled hphase hsettled => exact absurd hphase hpast.1
  | lookUp hphase => exact absurd hphase hpast.2
  | publish hphase hnull =>
    refine ⟨?_, rfl⟩
    split <;> exact ⟨nofun, nofun⟩
  | adopt hphase hsettled => exact ⟨isPastLookup_settled c _, rfl⟩
  | countUnresolved hphase => exact ⟨⟨nofun, nofun⟩, rfl⟩
  | countCall hphase => exact ⟨⟨nofun, nofun⟩, rfl⟩
  | report hphase => exact ⟨⟨nofun, nofun⟩, rfl⟩
  | rest hphase => exact ⟨hpast, rfl⟩

/-! ## Sound calls -/

theorem published_ne_zero (found : Address) : published found ≠ 0 := by
  unfold published
  split
  · exact unresolvable_ne_zero
  · assumption

theorem sound_call (m : Memory) (r : Request) : Sound m r.call :=
  rfl

theorem sound_settled (hsettled : m.slots c.slot ≠ 0) :
    Sound m (c.enter (settled (m.slots c.slot))) := by
  by_cases hlost : m.slots c.slot = unresolvable
  · rw [settled, if_pos hlost]
    exact ⟨rfl, hsettled⟩
  · rw [settled, if_neg hlost]
    exact ⟨rfl, hsettled, hlost⟩

theorem sound_of_step (hstep : Step m c m' c') (hsound : Sound m c) : Sound m' c' := by
  unfold Sound at hsound
  cases hstep with
  | seeNull hphase hnull =>
    rw [hphase] at hsound
    exact hsound
  | seeSettled hphase hsettled => exact sound_settled hsettled
  | lookUp hphase => exact ⟨rfl, rfl⟩
  | @publish value hphase hnull =>
    rw [hphase] at hsound
    obtain ⟨-, rfl⟩ := hsound
    have hslot := Memory.slots_setSlot m c.slot (published c.found)
    by_cases hlost : published c.found = unresolvable
    · rw [if_pos hlost]
      exact hslot.trans hlost
    · rw [if_neg hlost]
      exact ⟨hslot, published_ne_zero c.found, hlost⟩
  | adopt hphase hsettled => exact sound_settled hsettled
  | countUnresolved hphase =>
    rw [hphase] at hsound
    exact ⟨hsound, unresolvable_ne_zero⟩
  | countCall hphase =>
    rw [hphase] at hsound
    exact ⟨hsound.1, hsound.2.1⟩
  | report hphase =>
    rw [hphase] at hsound
    exact hsound
  | rest hphase =>
    rw [hphase] at hsound
    unfold Sound
    rw [hphase]
    exact hsound

/-- A step that changes a slot is that of a call on the slot.  The slot was null, and now it
is what the lookup of the call has found. -/
theorem publisher_of_step (hstep : Step m c m' c') (hsound : Sound m c) {slot : String}
    (hchange : m'.slots slot ≠ m.slots slot) :
    c'.slot = slot ∧ c'.lookedUp = true ∧ m.slots slot = 0 ∧
      m'.slots slot = published c'.found := by
  cases hstep with
  | @publish value hphase hnull =>
    rw [Sound, hphase] at hsound
    have heq : slot = c.slot := by
      by_cases heq : slot = c.slot
      · exact heq
      · exact absurd (Memory.slots_setSlot_of_ne m value heq) hchange
    subst heq
    refine ⟨rfl, hsound.1, hnull, ?_⟩
    rw [Memory.slots_setSlot, hsound.2]
    rfl
  | _ => exact absurd rfl hchange

/-- A call stays sound as long as settled slots stay as they are. -/
theorem Sound.of_slots (hsound : Sound m c)
    (hkept : ∀ slot, m.slots slot ≠ 0 → m'.slots slot = m.slots slot) : Sound m' c := by
  have hslot {value : Address} (hval : m.slots c.slot = value) (hne : value ≠ 0) :
      m'.slots c.slot = value := by
    rw [← hval] at hne ⊢
    exact hkept c.slot hne
  unfold Sound at hsound ⊢
  cases hphase : c.phase with
  | reading => simpa only [hphase] using hsound
  | lookingUp => simpa only [hphase] using hsound
  | publishing value => simpa only [hphase] using hsound
  | countingUnresolved =>
    rw [hphase] at hsound
    exact hslot hsound unresolvable_ne_zero
  | countingCall value =>
    rw [hphase] at hsound
    exact ⟨hslot hsound.1 hsound.2.1, hsound.2⟩
  | reporting value =>
    rw [hphase] at hsound
    exact ⟨hslot hsound.1 hsound.2, hsound.2⟩
  | finished value =>
    rw [hphase] at hsound
    exact ⟨hslot hsound.1 hsound.2, hsound.2⟩

/-! ## Counters -/

theorem isCounted_settled (c : Call) (value : Address) :
    (c.enter (settled value)).isCounted = false := by
  unfold settled
  split
  · rename_i hlost
    simp [isCounted, enter, hlost]
  · rfl

theorem owesCount_settled (c : Call) (value : Address) :
    (c.enter (settled value)).owesCount = false := by
  unfold settled
  split <;> rfl

/-- A step counts a call exactly if it turns it into one that has counted itself. -/
theorem indirectCalls_of_step (hstep : Step m c m' c') (hsound : Sound m c) :
    (m'.indirectCalls.toNat + c.isCounted.toNat) % 2 ^ 64 =
      (m.indirectCalls.toNat + c'.isCounted.toNat) % 2 ^ 64 := by
  cases hstep with
  | seeNull hphase hnull => simp [isCounted, enter, hphase]
  | seeSettled hphase hsettled =>
    rw [isCounted_settled]
    simp [isCounted, hphase]
  | lookUp hphase => simp [isCounted, hphase]
  | publish hphase hnull =>
    split <;> simp [isCounted, enter, hphase, Memory.setSlot]
  | adopt hphase hsettled =>
    rw [isCounted_settled]
    simp [isCounted, hphase]
  | countUnresolved hphase => simp [isCounted, enter, hphase, Memory.countUnresolved]
  | @countCall value hphase =>
    have hne : value ≠ unresolvable := by
      rw [Sound, hphase] at hsound
      exact hsound.2.2
    simp [isCounted, enter, hphase, hne, Memory.countCall, UInt64.toNat_add]
  | report hphase => simp [isCounted, enter, hphase, Memory.setStatus]
  | rest hphase => rfl

/-- A step that gives a slot up leaves the call in debt to the counter, and the step that
counts pays it. -/
theorem exists_lost_of_step (hstep : Step m c m' c') {lost : Finset String}
    (hlost : m.Lost lost) :
    ∃ lost', m'.Lost lost' ∧
      (m'.unresolvedSlots.toNat + c'.owesCount.toNat + lost.card) % 2 ^ 64 =
        (m.unresolvedSlots.toNat + c.owesCount.toNat + lost'.card) % 2 ^ 64 := by
  cases hstep with
  | seeNull hphase hnull => exact ⟨lost, hlost, by simp [owesCount, enter, hphase]⟩
  | seeSettled hphase hsettled =>
    refine ⟨lost, hlost, ?_⟩
    rw [owesCount_settled]
    simp [owesCount, hphase]
  | lookUp hphase => exact ⟨lost, hlost, by simp [owesCount, hphase]⟩
  | @publish value hphase hnull =>
    have hbefore : m.slots c.slot ≠ unresolvable := by
      rw [hnull]
      exact unresolvable_ne_zero.symm
    by_cases hvalue : value = unresolvable
    · have hnew : c.slot ∉ lost := fun hmem => hbefore ((hlost c.slot).mp hmem)
      subst hvalue
      refine ⟨insert c.slot lost, hlost.insert c.slot, ?_⟩
      rw [Finset.card_insert_of_notMem hnew]
      simp only [owesCount, enter, hphase, Memory.setSlot]
      simp
      omega
    · refine ⟨lost, hlost.setSlot hbefore hvalue, ?_⟩
      simp [owesCount, enter, hphase, hvalue, Memory.setSlot]
  | adopt hphase hsettled =>
    refine ⟨lost, hlost, ?_⟩
    rw [owesCount_settled]
    simp [owesCount, hphase]
  | countUnresolved hphase =>
    refine ⟨lost, hlost, ?_⟩
    simp [owesCount, enter, hphase, Memory.countUnresolved, UInt64.toNat_add]
  | countCall hphase =>
    exact ⟨lost, hlost, by simp [owesCount, enter, hphase, Memory.countCall]⟩
  | report hphase => exact ⟨lost, hlost, by simp [owesCount, enter, hphase, Memory.setStatus]⟩
  | rest hphase => exact ⟨lost, hlost, rfl⟩

end Call

end CallBridge.Resolution

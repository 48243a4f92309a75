import Mathlib.Data.List.Forall2

/-!
# Outcomes of steps that can fail

A step that can fail gives an `Except`.  Two such steps in a row succeed if both do,
and fail if one of them does (`bind_eq_ok_iff`, `bind_eq_error_iff`).  Many steps in a row
give all their results, or fail as the first one does that fails (`mapM_eq_ok_iff`,
`mapM_eq_error_iff`); `IsFirst` says which one that is.
-/

namespace CallBridge

variable {ε α β : Type}

@[simp] theorem ok_bind (a : α) (second : α → Except ε β) : (.ok a >>= second) = second a :=
  rfl

@[simp] theorem error_bind (fault : ε) (second : α → Except ε β) :
    (.error fault >>= second) = .error fault :=
  rfl

/-- Two steps in a row succeed if the first one does and the second one does on its result. -/
theorem bind_eq_ok_iff {first : Except ε α} {second : α → Except ε β} {b : β} :
    (first >>= second) = .ok b ↔ ∃ a, first = .ok a ∧ second a = .ok b := by
  cases first with
  | error fault => exact iff_of_false nofun nofun
  | ok a =>
    constructor
    · intro h
      exact ⟨a, rfl, h⟩
    · rintro ⟨a', ha, h⟩
      cases ha
      exact h

/-- Two steps in a row fail if the first one does, or the second one does on its result. -/
theorem bind_eq_error_iff {first : Except ε α} {second : α → Except ε β} {fault : ε} :
    (first >>= second) = .error fault ↔
      first = .error fault ∨ ∃ a, first = .ok a ∧ second a = .error fault := by
  cases first with
  | error problem =>
    rw [error_bind]
    constructor
    · intro h
      cases h
      exact .inl rfl
    · rintro (h | ⟨a, ⟨⟩, -⟩)
      cases h
      rfl
  | ok a =>
    rw [ok_bind]
    constructor
    · intro h
      exact .inr ⟨a, rfl, h⟩
    · rintro (⟨⟨⟩⟩ | ⟨a', ha, h⟩)
      cases ha
      exact h

/-! ## Many steps in a row -/

/-- An element of a list with a property that no element before it has. -/
structure IsFirst (p : α → Prop) (xs front : List α) (x : α) : Prop where
  split : ∃ back, xs = front ++ x :: back
  earlier : ∀ y ∈ front, ¬ p y
  holds : p x

variable {p : α → Prop} {x y : α} {xs front : List α}

theorem isFirst_nil (hx : p x) : IsFirst p (x :: xs) [] x :=
  ⟨⟨xs, rfl⟩, List.forall_mem_nil _, hx⟩

theorem IsFirst.cons (h : IsFirst p xs front x) (hy : ¬ p y) :
    IsFirst p (y :: xs) (y :: front) x where
  split := by
    obtain ⟨back, rfl⟩ := h.split
    exact ⟨back, rfl⟩
  earlier := List.forall_mem_cons.mpr ⟨hy, h.earlier⟩
  holds := h.holds

/-- The first element of a list with a property is its head, or its head does not have the
property and it is the first one of the tail. -/
theorem isFirst_cons_iff :
    IsFirst p (y :: xs) front x ↔
      (front = [] ∧ x = y ∧ p y) ∨ (¬ p y ∧ ∃ rest, front = y :: rest ∧ IsFirst p xs rest x) := by
  constructor
  · rintro ⟨⟨back, hsplit⟩, hearlier, hx⟩
    cases front with
    | nil =>
      obtain ⟨rfl, rfl⟩ := List.cons.inj hsplit
      exact .inl ⟨rfl, rfl, hx⟩
    | cons z rest =>
      obtain ⟨rfl, rfl⟩ := List.cons.inj hsplit
      obtain ⟨hy, hrest⟩ := List.forall_mem_cons.mp hearlier
      exact .inr ⟨hy, rest, rfl, ⟨back, rfl⟩, hrest, hx⟩
  · rintro (⟨rfl, rfl, hy⟩ | ⟨hy, rest, rfl, hrest⟩)
    · exact isFirst_nil hy
    · exact hrest.cons hy

/-- A list has one first element with a property at most. -/
theorem IsFirst.unique {back : List α} (hx : IsFirst p xs front x) (hy : IsFirst p xs back y) :
    front = back ∧ x = y := by
  induction xs generalizing front back with
  | nil =>
    obtain ⟨rest, hnil⟩ := hx.split
    exact absurd hnil.symm (List.append_ne_nil_of_right_ne_nil front (List.cons_ne_nil x rest))
  | cons z zs ih =>
    rcases isFirst_cons_iff.mp hx with ⟨rfl, rfl, hz⟩ | ⟨hz, front, rfl, hfirst⟩
    · rcases isFirst_cons_iff.mp hy with ⟨rfl, rfl, -⟩ | ⟨hnot, -⟩
      · exact ⟨rfl, rfl⟩
      · exact absurd hz hnot
    · rcases isFirst_cons_iff.mp hy with ⟨-, -, hholds⟩ | ⟨-, back, rfl, hsecond⟩
      · exact absurd hholds hz
      · obtain ⟨hfront, heq⟩ := ih hfirst hsecond
        exact ⟨congrArg (z :: ·) hfront, heq⟩

theorem exists_isFirst_iff : (∃ front x, IsFirst p xs front x) ↔ ∃ x ∈ xs, p x := by
  constructor
  · rintro ⟨front, x, ⟨back, rfl⟩, -, hx⟩
    exact ⟨x, List.mem_append_right front List.mem_cons_self, hx⟩
  · rintro ⟨x, hx, hp⟩
    induction xs with
    | nil => exact absurd hx List.not_mem_nil
    | cons y ys ih =>
      by_cases hy : p y
      · exact ⟨[], y, isFirst_nil hy⟩
      · rcases List.mem_cons.mp hx with rfl | hrest
        · exact absurd hp hy
        · obtain ⟨front, z, hfirst⟩ := ih hrest
          exact ⟨y :: front, z, hfirst.cons hy⟩

variable {step : α → Except ε β}

/-- Steps in a row give the results of the single steps. -/
theorem mapM_eq_ok_iff {ys : List β} :
    xs.mapM step = .ok ys ↔ List.Forall₂ (fun x y => step x = .ok y) xs ys := by
  induction xs generalizing ys with
  | nil =>
    rw [List.mapM_nil, List.forall₂_nil_left_iff]
    exact ⟨fun h => (Except.ok.inj h).symm, fun h => congrArg Except.ok h.symm⟩
  | cons x xs ih =>
    rw [List.mapM_cons, bind_eq_ok_iff, List.forall₂_cons_left_iff]
    constructor
    · rintro ⟨y, hy, hrest⟩
      obtain ⟨zs, hzs, heq⟩ := bind_eq_ok_iff.mp hrest
      exact ⟨y, zs, hy, ih.mp hzs, (Except.ok.inj heq).symm⟩
    · rintro ⟨y, zs, hy, hzs, rfl⟩
      exact ⟨y, hy, bind_eq_ok_iff.mpr ⟨zs, ih.mpr hzs, rfl⟩⟩

/-- Steps in a row fail as the first one does that fails. -/
theorem mapM_eq_error_iff {fault : ε} :
    xs.mapM step = .error fault ↔
      ∃ front x, IsFirst (fun x => ∃ problem, step x = .error problem) xs front x ∧
        step x = .error fault := by
  induction xs with
  | nil =>
    refine iff_of_false nofun ?_
    rintro ⟨front, x, ⟨⟨back, hsplit⟩, -, -⟩, -⟩
    exact List.append_ne_nil_of_right_ne_nil front (List.cons_ne_nil x back) hsplit.symm
  | cons x xs ih =>
    rw [List.mapM_cons, bind_eq_error_iff]
    constructor
    · rintro (hx | ⟨y, hy, hrest⟩)
      · exact ⟨[], x, isFirst_nil ⟨fault, hx⟩, hx⟩
      · rcases bind_eq_error_iff.mp hrest with hrest | ⟨ys, -, hnever⟩
        · obtain ⟨front, z, hfirst, hz⟩ := ih.mp hrest
          exact ⟨x :: front, z, hfirst.cons (by simp [hy]), hz⟩
        · exact absurd hnever nofun
    · rintro ⟨front, z, hfirst, hz⟩
      rcases isFirst_cons_iff.mp hfirst with ⟨-, rfl, -⟩ | ⟨hx, rest, -, hrest⟩
      · exact .inl hz
      · cases hstep : step x with
        | error problem => exact absurd ⟨problem, hstep⟩ hx
        | ok y =>
          refine .inr ⟨y, rfl, bind_eq_error_iff.mpr (.inl (ih.mpr ⟨rest, z, hrest, hz⟩))⟩

end CallBridge

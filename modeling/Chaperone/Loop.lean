/-!
# Loops that may not end

A loop around calls to the machine ends when the machine says so.  `iterate` runs a step up to a
given number of times; with more fuel a loop that has ended gives the same result.

What one step keeps, the loop keeps (`iterate_keeps`), and loops go alike if their steps do
(`iterate_rel`, `iterate_map`).
-/

namespace Chaperone

universe u u' v v'

/-- Repeats a step until it gives a result, at most `fuel` times. -/
def iterate {α : Type u} {β : Type v} (step : α → α ⊕ β) : Nat → α → α ⊕ β
  | 0, a => .inl a
  | fuel + 1, a =>
    match step a with
    | .inl a => iterate step fuel a
    | .inr b => .inr b

/-- A result stays the result when there is more fuel. -/
theorem iterate_add {α : Type u} {β : Type v} {step : α → α ⊕ β} {fuel : Nat} {a : α} {b : β}
    (h : iterate step fuel a = .inr b) (more : Nat) : iterate step (fuel + more) a = .inr b := by
  induction fuel generalizing a with
  | zero => simp [iterate] at h
  | succ fuel ih =>
    rw [Nat.add_right_comm]
    simp only [iterate] at h ⊢
    cases hs : step a with
    | inl a' => rw [hs] at h; exact ih h
    | inr b' => rw [hs] at h; exact h

/-- A result comes from a step after some others. -/
theorem exists_last_of_iterate {α : Type u} {β : Type v} {step : α → α ⊕ β} {fuel : Nat} {a : α}
    {b : β} (h : iterate step fuel a = .inr b) :
    ∃ count < fuel, ∃ last, iterate step count a = .inl last ∧ step last = .inr b := by
  induction fuel generalizing a with
  | zero => cases h
  | succ fuel ih =>
    simp only [iterate] at h
    cases hs : step a with
    | inl a' =>
      rw [hs] at h
      obtain ⟨count, hcount, last, hlast, hstep⟩ := ih h
      refine ⟨count + 1, Nat.succ_lt_succ hcount, last, ?_, hstep⟩
      rw [iterate, hs]
      exact hlast
    | inr b' =>
      rw [hs] at h
      exact ⟨0, Nat.succ_pos _, a, rfl, hs.trans h⟩

/-- One more step follows the others, unless they have given a result. -/
theorem iterate_succ {α : Type u} {β : Type v} (step : α → α ⊕ β) (count : Nat) (a : α) :
    iterate step (count + 1) a = Sum.elim step Sum.inr (iterate step count a) := by
  induction count generalizing a with
  | zero =>
    rw [iterate, iterate, Sum.elim_inl]
    cases step a <;> rfl
  | succ count ih =>
    rw [iterate, iterate]
    cases step a with
    | inl a' => exact ih a'
    | inr b => rfl

/-- A loop ends with the result of a step that is made while there is fuel. -/
theorem iterate_eq_inr_iff {α : Type u} {β : Type v} {step : α → α ⊕ β} {fuel : Nat} {a : α}
    {b : β} : iterate step fuel a = .inr b ↔
      ∃ count < fuel, ∃ last, iterate step count a = .inl last ∧ step last = .inr b := by
  refine ⟨exists_last_of_iterate, ?_⟩
  rintro ⟨count, hcount, last, hlast, hstep⟩
  have hended : iterate step (count + 1) a = .inr b := by
    rw [iterate_succ, hlast, Sum.elim_inl, hstep]
  obtain ⟨more, rfl⟩ := Nat.exists_eq_add_of_le hcount
  exact iterate_add hended more

section

variable {α : Type u} {α' : Type u'} {β : Type v} {β' : Type v'}

theorem iterate_keeps {step : α → α ⊕ β} {P : α → Prop} {Q : β → Prop}
    (hstep : ∀ a, P a → Sum.elim P Q (step a)) (fuel : Nat) {a : α} (h : P a) :
    Sum.elim P Q (iterate step fuel a) := by
  induction fuel generalizing a with
  | zero => exact h
  | succ fuel ih =>
    have hfirst := hstep a h
    rw [iterate]
    generalize step a = r at hfirst ⊢
    cases r with
    | inl a' => exact ih hfirst
    | inr b => exact hfirst

theorem iterate_rel {step : α → α ⊕ β} {step' : α' → α' ⊕ β'} {R : α → α' → Prop}
    {S : β → β' → Prop} (hstep : ∀ a a', R a a' → Sum.LiftRel R S (step a) (step' a'))
    (fuel : Nat) {a : α} {a' : α'} (h : R a a') :
    Sum.LiftRel R S (iterate step fuel a) (iterate step' fuel a') := by
  induction fuel generalizing a a' with
  | zero => exact .inl h
  | succ fuel ih =>
    have hfirst := hstep a a' h
    rw [iterate, iterate]
    generalize step a = r, step' a' = r' at hfirst ⊢
    cases hfirst with
    | inl h => exact ih h
    | inr h => exact .inr h

theorem iterate_map {step : α → α ⊕ β} {step' : α' → α' ⊕ β'} {f : α → α'} {g : β → β'}
    (hstep : ∀ a, step' (f a) = (step a).map f g) (fuel : Nat) (a : α) :
    iterate step' fuel (f a) = (iterate step fuel a).map f g := by
  induction fuel generalizing a with
  | zero => rfl
  | succ fuel ih =>
    rw [iterate, iterate, hstep]
    cases step a with
    | inl a' => exact ih a'
    | inr b => rfl

end

end Chaperone

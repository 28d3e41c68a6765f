/-
Module: EduMuduo.Library.Doubling
Layer: Library
Purpose: Growth by doubling.  A size that never falls, and that doubles at every output while it is
  below a bound, leaves room for few outputs in a run of any length: logarithmically many in the
  bound.
Imports: EduMuduo.Library.Conservation, Mathlib.Algebra.Group.Nat.Defs, Mathlib.Data.Nat.Log
Trusted boundary: none
Main exports: Machine.Doubles, Machine.Doubles.run, Machine.Doubles.few
-/
import EduMuduo.Library.Conservation
import Mathlib.Algebra.Group.Nat.Defs
import Mathlib.Data.Nat.Log

namespace Library

namespace Machine

variable {State Action Out : Type*} {M : Machine State Action}

/-- A step leaves the size alone or makes it larger.  One that puts something out starts below the
bound, and it doubles the size. -/
structure Doubles (M : Machine State Action) (emit : State → Action → List Out)
    (size : State → Nat) (bound : Nat) : Prop where
  grows : ∀ s a, M.Reachable s → M.enabled s a → size s ≤ size (M.next s a)
  single : ∀ s a, (emit s a).length ≤ 1
  doubles : ∀ s a, M.Reachable s → M.enabled s a → emit s a ≠ [] →
    size s < bound ∧ 2 * size s ≤ size (M.next s a)

variable {emit : State → Action → List Out} {size : State → Nat} {bound : Nat}

/-- Each output of a run has doubled the size that the run began with. -/
theorem Doubles.run (doubling : M.Doubles emit size bound) {s : State}
    (reachable : M.Reachable s) {schedule : List Action} (admitted : M.Admits s schedule) :
    M.outputs emit s schedule = [] ∨
      size s * 2 ^ (M.outputs emit s schedule).length < 2 * bound := by
  induction schedule generalizing s with
  | nil => exact .inl rfl
  | cons a rest inductionHypothesis =>
      have later := inductionHypothesis (reachable.step admitted.1) admitted.2
      have grows := doubling.grows s a reachable admitted.1
      rw [outputs_cons]
      cases put : emit s a with
      | nil =>
          rw [List.nil_append]
          apply later.imp_right
          intro below
          have before := Nat.mul_le_mul_right (2 ^ (M.outputs emit (M.next s a) rest).length) grows
          exact Nat.lt_of_le_of_lt before below
      | cons first others =>
          right
          have single := doubling.single s a
          obtain ⟨below, doubles⟩ := doubling.doubles s a reachable admitted.1
            (put ▸ List.cons_ne_nil _ _)
          rw [put, List.length_cons] at single
          have alone : others = [] :=
            List.eq_nil_of_length_eq_zero (Nat.le_zero.mp (Nat.le_of_succ_le_succ single))
          subst alone
          rw [List.singleton_append, List.length_cons, Nat.pow_succ', ← Nat.mul_assoc]
          rcases later with none | still
          · rw [none, List.length_nil, Nat.pow_zero, Nat.mul_one, Nat.mul_comm]
            exact Nat.mul_lt_mul_of_pos_left below Nat.two_pos
          · rw [Nat.mul_comm (size s) 2]
            have before :=
              Nat.mul_le_mul_right (2 ^ (M.outputs emit (M.next s a) rest).length) doubles
            exact Nat.lt_of_le_of_lt before still

/-- So there are few of them. -/
theorem Doubles.few (doubling : M.Doubles emit size bound) {s : State}
    (reachable : M.Reachable s) {schedule : List Action} (admitted : M.Admits s schedule)
    {half : Nat} (start : size s = 2 * half) (positive : 0 < half) :
    (M.outputs emit s schedule).length ≤ Nat.log 2 (bound / half) := by
  rcases doubling.run reachable admitted with none | below
  · rw [none]
    exact Nat.zero_le _
  · rw [start, Nat.mul_assoc] at below
    have less := Nat.lt_of_mul_lt_mul_left below
    have fits : 2 ^ (M.outputs emit s schedule).length ≤ bound / half := by
      rw [Nat.le_div_iff_mul_le positive, Nat.mul_comm]
      exact Nat.le_of_lt less
    have some : bound / half ≠ 0 := Nat.ne_of_gt (Nat.lt_of_lt_of_le (Nat.two_pow_pos _) fits)
    exact Nat.le_log_of_pow_le Nat.one_lt_two fits

end Machine

end Library

/-
Module: EduMuduo.Library.Cyclic
Layer: Library
Purpose: Going round `n` places.  The places visited by a counter are its values modulo `n`.  A
  counter that only grows visits every place equally often up to one, and any `n` visits in a row
  go to different places; a visit to a place that is still among the last `n - 1` breaks this.
Imports: Mathlib.Data.Int.CardIntervalMod, Mathlib.Order.Interval.Finset.Nat
Trusted boundary: none
Main exports: count_map_mod, count_map_mod_le, nodup_map_mod_range', mod_mem_window
-/
import Mathlib.Data.Int.CardIntervalMod
import Mathlib.Order.Interval.Finset.Nat

namespace Library

/-- Visits to place `r` among the first `k`, as a count of congruent numbers. -/
theorem count_map_mod (n k r : Nat) (place : r < n) :
    ((List.range k).map (· % n)).count r = k.count (· ≡ r [MOD n]) := by
  induction k with
  | zero => rfl
  | succ k inductionHypothesis =>
      rw [List.range_succ, List.map_append, List.count_append, inductionHypothesis,
        Nat.count_succ, List.map_singleton, List.count_singleton]
      simp [Nat.ModEq, Nat.mod_eq_of_lt place]

/-- Among the first visits every two places are met equally often up to one. -/
theorem count_map_mod_le {n k r r' : Nat} (place : r < n) (place' : r' < n) :
    ((List.range k).map (· % n)).count r ≤ ((List.range k).map (· % n)).count r' + 1 := by
  have positive : 0 < n := Nat.zero_lt_of_lt place
  rw [count_map_mod n k r place, count_map_mod n k r' place',
    Nat.count_modEq_card k positive, Nat.count_modEq_card k positive]
  split <;> split <;> omega

/-- Visits in a row go to different places until they have gone round. -/
theorem nodup_map_mod_range' (n first : Nat) : ((List.range' first n).map (· % n)).Nodup := by
  apply List.Nodup.map_on
  · intro a inA b inB same
    rw [List.mem_range'_1] at inA inB
    apply Nat.mod_injOn_Ico first n
    · exact Finset.mem_coe.mpr (Finset.mem_Ico.mpr inA)
    · exact Finset.mem_coe.mpr (Finset.mem_Ico.mpr inB)
    · exact same
  · exact List.nodup_range'

/-- Place 0 is among the `n - 1` places before visit `m`, unless visit `m` is the one that would
come back to it. -/
theorem zero_mem_window {n m : Nat} (positive : 0 < n) (long : n ≤ m) (off : ¬ n ∣ m) :
    ∃ i, m + 1 - n ≤ i ∧ i < m ∧ i % n = 0 := by
  have rest : m % n ≠ 0 := fun zero => off (Nat.dvd_of_mod_eq_zero zero)
  have less : m % n < n := Nat.mod_lt m positive
  refine ⟨m - m % n, ?_, ?_, ?_⟩
  · omega
  · omega
  · exact Nat.mod_eq_zero_of_dvd (Nat.dvd_sub_mod m)

end Library

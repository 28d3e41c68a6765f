/-
Module: EduMuduo.Proofs.RoundRobin
Layer: Proofs
Purpose: How evenly `getNextLoop` spreads its calls.  The counter has 32 bits and its value is
  reduced modulo the number of loops, so the round is broken where the counter comes back to 0,
  unless the number of loops divides `2 ^ 32`.  Up to that call every pool is balanced; behind it a
  pool whose size does not divide `2 ^ 32` is not.
Imports: EduMuduo.Core.EventLoopThreadPool, EduMuduo.Library.Cyclic
Trusted boundary: none (fully proved)
Main exports: EventLoopThreadPool.RoundRobin, EventLoopThreadPool.getNextLoop_eq,
  EventLoopThreadPool.roundRobin_iff
-/
import EduMuduo.Core.EventLoopThreadPool
import EduMuduo.Library.Cyclic

namespace EduMuduo

open Library

namespace EventLoopThreadPool

variable {Loop : Type}

/-- Over the first `k` calls any two loops are returned equally often up to one, and any `n` calls
in a row return different loops. -/
structure RoundRobin [DecidableEq Loop] (pool : EventLoopThreadPool Loop) (n k : Nat) : Prop where
  balanced : ∀ a ∈ pool.loops, ∀ b ∈ pool.loops,
    (pool.returned 0 k).count a ≤ (pool.returned 0 k).count b + 1
  different : ∀ first, first + n ≤ k → (pool.returned first n).Nodup

/-- A pool of `n` threads after `start`. -/
def launch (baseLoop : Loop) (name : String) (n : Nat) (startLoop : Nat → Loop) (cb : Bool) :
    Option (EventLoopThreadPool Loop × List Loop) :=
  ((construct baseLoop name).setThreadNum n).start startLoop cb

section Launched

variable {baseLoop : Loop} {name : String} {n : Nat} {startLoop : Nat ↪ Loop} {cb : Bool}
  {pool : EventLoopThreadPool Loop} {called : List Loop}

theorem launch_loops (launched : launch baseLoop name n startLoop cb = some (pool, called)) :
    pool.loops = (List.range n).map startLoop :=
  (start_spec launched).1

/-- Call `i` returns the loop of the thread with number `i % 2 ^ 32 % n`. -/
theorem getNextLoop_eq (launched : launch baseLoop name n startLoop cb = some (pool, called))
    (positive : 0 < n) (i : Nat) :
    (pool.after i).getNextLoop.1 = startLoop (i % 2 ^ 32 % n) := by
  have loops := launch_loops launched
  have fresh : pool.next = 0 := (start_spec launched).2.1
  have length : pool.loops.length = n := by simp [loops]
  have nonempty : pool.loops ≠ [] := List.length_pos_iff.mp (length ▸ positive)
  have call := returns nonempty fresh i
  have place : i % 2 ^ 32 % n < n := Nat.mod_lt _ positive
  rw [length, loops, List.getElem?_map, List.getElem?_range place] at call
  exact (Option.some.inj call).symm

theorem returned_eq (launched : launch baseLoop name n startLoop cb = some (pool, called))
    (positive : 0 < n) (first count : Nat) :
    pool.returned first count =
      (List.range' first count).map fun i => startLoop (i % 2 ^ 32 % n) := by
  apply List.map_congr_left
  intro i _
  exact getNextLoop_eq launched positive i

/-! ### While the round is whole -/

/-- The truncated counter visits the places in turn, either for ever or until it wraps. -/
theorem place_eq {i k : Nat} (whole : n ∣ 2 ^ 32 ∨ k ≤ 2 ^ 32) (early : i < k) :
    i % 2 ^ 32 % n = i % n := by
  cases whole with
  | inl divides => exact Nat.mod_mod_of_dvd i divides
  | inr short => rw [Nat.mod_eq_of_lt (Nat.lt_of_lt_of_le early short)]

theorem returned_whole (launched : launch baseLoop name n startLoop cb = some (pool, called))
    (positive : 0 < n) {first count k : Nat} (whole : n ∣ 2 ^ 32 ∨ k ≤ 2 ^ 32)
    (within : first + count ≤ k) :
    pool.returned first count = ((List.range' first count).map (· % n)).map startLoop := by
  rw [returned_eq launched positive, List.map_map]
  apply List.map_congr_left
  intro i member
  have early : i < k := by
    rw [List.mem_range'_1] at member
    omega
  exact congrArg startLoop (place_eq whole early)

theorem roundRobin_of_whole [DecidableEq Loop]
    (launched : launch baseLoop name n startLoop cb = some (pool, called))
    (positive : 0 < n) {k : Nat} (whole : n ∣ 2 ^ 32 ∨ k ≤ 2 ^ 32) : pool.RoundRobin n k := by
  constructor
  · intro a aLoop b bLoop
    rw [launch_loops launched, List.mem_map] at aLoop bLoop
    obtain ⟨i, iPlace, rfl⟩ := aLoop
    obtain ⟨j, jPlace, rfl⟩ := bLoop
    rw [List.mem_range] at iPlace jPlace
    rw [returned_whole launched positive whole (Nat.zero_add k).le, ← List.range_eq_range',
      List.count_map_of_injective _ _ startLoop.injective,
      List.count_map_of_injective _ _ startLoop.injective]
    exact count_map_mod_le iPlace jPlace
  · intro first within
    rw [returned_whole launched positive whole within]
    apply List.Nodup.map startLoop.injective
    exact nodup_map_mod_range' n first

/-! ### Behind the wrap -/

/-- Call `2 ^ 32` returns the first loop again, although it was returned within the last `n - 1`
calls. -/
theorem repeats_at_wrap (launched : launch baseLoop name n startLoop cb = some (pool, called))
    (positive : 0 < n) (off : ¬ n ∣ 2 ^ 32) (small : n ≤ 2 ^ 32) :
    ¬ (pool.returned (2 ^ 32 + 1 - n) n).Nodup := by
  intro nodup
  obtain ⟨i, late, early, first⟩ := zero_mem_window positive small off
  rw [returned_eq launched positive] at nodup
  have same : i = 2 ^ 32 := by
    apply List.inj_on_of_nodup_map nodup
    · exact List.mem_range'_1.mpr ⟨late, by omega⟩
    · exact List.mem_range'_1.mpr ⟨by omega, by omega⟩
    · rw [Nat.mod_eq_of_lt early, first, Nat.mod_self, Nat.zero_mod]
  omega

/-- With more than `2 ^ 32` loops the first one comes twice before the last one comes at all. -/
theorem unbalanced_of_large [DecidableEq Loop]
    (launched : launch baseLoop name n startLoop cb = some (pool, called))
    {k : Nat} (late : 2 ^ 32 < k) (large : 2 ^ 32 < n) :
    ¬ (pool.returned 0 k).count (startLoop 0) ≤
      (pool.returned 0 k).count (startLoop (2 ^ 32)) + 1 := by
  have positive : 0 < n := Nat.zero_lt_of_lt large
  have never : (pool.returned 0 k).count (startLoop (2 ^ 32)) = 0 := by
    rw [returned_eq launched positive, List.count_eq_zero, List.mem_map]
    rintro ⟨i, -, same⟩
    have place := startLoop.injective same
    have below : i % 2 ^ 32 % n ≤ i % 2 ^ 32 := Nat.mod_le _ _
    have : i % 2 ^ 32 < 2 ^ 32 := Nat.mod_lt i (by decide)
    omega
  have split : List.range' 0 k = List.range' 0 (2 ^ 32) ++ List.range' (2 ^ 32) (k - 2 ^ 32) := by
    have joined := List.range'_append_1 (s := 0) (m := 2 ^ 32) (n := k - 2 ^ 32)
    rw [Nat.zero_add, Nat.add_sub_cancel' late.le] at joined
    exact joined.symm
  have visits : ∀ first count i, first ≤ i → i < first + count → i % 2 ^ 32 % n = 0 →
      0 < ((List.range' first count).map fun i => startLoop (i % 2 ^ 32 % n)).count
        (startLoop 0) := by
    intro first count i above below zero
    rw [List.count_pos_iff, List.mem_map]
    exact ⟨i, List.mem_range'_1.mpr ⟨above, below⟩, congrArg startLoop zero⟩
  have once := visits 0 (2 ^ 32) 0 (by omega) (by omega) (by simp)
  have again := visits (2 ^ 32) (k - 2 ^ 32) (2 ^ 32) (by omega) (by omega) (by simp)
  rw [never, returned_eq launched positive, split, List.map_append, List.count_append]
  omega

theorem not_roundRobin [DecidableEq Loop]
    (launched : launch baseLoop name n startLoop cb = some (pool, called))
    (positive : 0 < n) (off : ¬ n ∣ 2 ^ 32) {k : Nat} (late : 2 ^ 32 < k) :
    ¬ pool.RoundRobin n k := by
  intro round
  by_cases small : n ≤ 2 ^ 32
  · apply repeats_at_wrap launched positive off small
    exact round.different _ (by omega)
  · have large : 2 ^ 32 < n := Nat.lt_of_not_le small
    have loops := launch_loops launched
    apply unbalanced_of_large launched late large
    apply round.balanced
    · exact loops ▸ List.mem_map_of_mem (List.mem_range.mpr positive)
    · exact loops ▸ List.mem_map_of_mem (List.mem_range.mpr large)

/-- A pool of `n` loops keeps the round over `k` calls exactly when `n` divides `2 ^ 32` or the
counter has not wrapped yet. -/
theorem roundRobin_iff [DecidableEq Loop]
    (launched : launch baseLoop name n startLoop cb = some (pool, called))
    (positive : 0 < n) (k : Nat) : pool.RoundRobin n k ↔ n ∣ 2 ^ 32 ∨ k ≤ 2 ^ 32 := by
  constructor
  · intro round
    by_contra broken
    rw [not_or, Nat.not_le] at broken
    exact not_roundRobin launched positive broken.1 broken.2 round
  · exact roundRobin_of_whole launched positive

end Launched

/-- Three loops, which `start` has numbered from 0 on. -/
def threeLoops : EventLoopThreadPool Nat :=
  startThreads id 0 3 { construct 0 "pool" with numThreads := 3, started := true }

theorem threeLoops_launched :
    launch 0 "pool" 3 (Function.Embedding.refl Nat) false = some (threeLoops, []) := rfl

/-- Three loops keep the round up to the wrap and not behind it. -/
theorem roundRobin_iff_three :
    threeLoops.RoundRobin 3 (2 ^ 32) ∧ ¬ threeLoops.RoundRobin 3 (2 ^ 32 + 1) := by
  constructor
  · rw [roundRobin_iff threeLoops_launched (by decide)]
    decide
  · rw [roundRobin_iff threeLoops_launched (by decide)]
    decide

/-- Three io loops and `2 ^ 32 + 1` calls break the round. -/
theorem roundRobin_fails :
    ¬ ∀ (n k : Nat), 0 < n → ∀ pool called,
      launch 0 "pool" n (Function.Embedding.refl Nat) false = some (pool, called) →
        pool.RoundRobin n k := by
  intro always
  apply not_roundRobin threeLoops_launched
  · decide
  · decide
  · exact Nat.lt_succ_self (2 ^ 32)
  · exact always 3 (2 ^ 32 + 1) (by decide) threeLoops [] threeLoops_launched

end EventLoopThreadPool

end EduMuduo

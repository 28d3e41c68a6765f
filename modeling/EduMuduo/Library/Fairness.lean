/-
Module: EduMuduo.Library.Fairness
Layer: Library
Purpose: What a machine must come to in an endless run.  A run is weakly fair to a process when it
  does not pass over the process for ever while one of its actions is enabled all the time.  The
  rule of the helpful process proves that a goal is reached: short of the goal some process will take
  a step, each of its steps brings the goal closer by a measure in a well-founded order, and the
  steps of the others bring it closer, or leave the measure and the helpful process as they are.
Imports: EduMuduo.Library.Machine, Mathlib.Tactic.ByContra
Trusted boundary: none
Main exports: exists_crossing, Machine.stateAt, Machine.AdmitsEndless, Machine.Fair,
  Machine.admitsEndless_getD, Machine.eventually_of_response
-/
import EduMuduo.Library.Machine
import Mathlib.Tactic.ByContra

namespace Library

/-- What comes to hold does so in one step. -/
theorem exists_crossing {P : Nat → Prop} {n m : Nat} (before : ¬ P n) (later : n ≤ m)
    (after : P m) : ∃ k, n ≤ k ∧ k < m ∧ ¬ P k ∧ P (k + 1) := by
  induction later with
  | refl => exact absurd after before
  | @step m later inductionHypothesis =>
      by_cases already : P m
      · obtain ⟨k, first, last, crosses⟩ := inductionHypothesis already
        exact ⟨k, first, Nat.lt_succ_of_lt last, crosses⟩
      · exact ⟨m, later, Nat.lt_succ_self m, already, after⟩

namespace Machine

variable {State Action : Type*} {M : Machine State Action}

/-- The state before step `n` of an endless schedule. -/
def stateAt (M : Machine State Action) (s : State) (schedule : Nat → Action) : Nat → State
  | 0 => s
  | n + 1 => M.next (stateAt M s schedule n) (schedule n)

/-- Every action of an endless schedule is enabled in its turn. -/
def AdmitsEndless (M : Machine State Action) (s : State) (schedule : Nat → Action) : Prop :=
  ∀ n, M.enabled (M.stateAt s schedule n) (schedule n)

/-- Weak fairness: actions of the kind `own` that stay possible are not passed over for ever. -/
def Fair (M : Machine State Action) (s : State) (schedule : Nat → Action)
    (own : Action → Prop) : Prop :=
  ∀ n, (∀ m, n ≤ m → ∃ a, own a ∧ M.enabled (M.stateAt s schedule m) a) →
    ∃ m, n ≤ m ∧ own (schedule m)

section Run

variable {s : State} {schedule : Nat → Action}

@[simp] theorem restrict_stateAt (condition : State → Action → Prop) (n : Nat) :
    (M.restrict condition).stateAt s schedule n = M.stateAt s schedule n := by
  induction n with
  | zero => rfl
  | succ n inductionHypothesis => exact congrArg (M.next · (schedule n)) inductionHypothesis

theorem stateAt_succ (n : Nat) :
    M.stateAt s schedule (n + 1) = M.next (M.stateAt s schedule n) (schedule n) := rfl

/-- An endless run stays within the reachable states. -/
theorem Reachable.stateAt (reachable : M.Reachable s) (admitted : M.AdmitsEndless s schedule)
    (n : Nat) : M.Reachable (M.stateAt s schedule n) := by
  induction n with
  | zero => exact reachable
  | succ n inductionHypothesis => exact inductionHypothesis.step (admitted n)

/-- The first step of an endless run and the rest of it. -/
theorem stateAt_succ_first (n : Nat) : M.stateAt s schedule (n + 1) =
    M.stateAt (M.next s (schedule 0)) (fun m => schedule (m + 1)) n := by
  induction n with
  | zero => rfl
  | succ n inductionHypothesis =>
      rw [stateAt_succ (n + 1), inductionHypothesis]
      rfl

theorem AdmitsEndless.cons (guard : M.enabled s (schedule 0))
    (rest : M.AdmitsEndless (M.next s (schedule 0)) fun m => schedule (m + 1)) :
    M.AdmitsEndless s schedule := by
  intro n
  cases n with
  | zero => exact guard
  | succ n =>
      rw [stateAt_succ_first]
      exact rest n

end Run

/-- A run that ends in one action repeated for ever, and what this action keeps. -/
theorem admitsEndless_getD {J : State → Prop} {last : Action}
    (stays : ∀ s, J s → M.enabled s last ∧ J (M.next s last)) {s : State} {front : List Action}
    (admitted : M.Admits s front) (there : J (M.exec s front)) :
    M.AdmitsEndless s (front.getD · last) ∧
      ∀ n, front.length ≤ n → J (M.stateAt s (front.getD · last) n) := by
  induction front generalizing s with
  | nil =>
      have kept : ∀ n, J (M.stateAt s (fun _ => last) n) := by
        intro n
        induction n with
        | zero => exact there
        | succ n inductionHypothesis => exact (stays _ inductionHypothesis).2
      exact ⟨fun n => (stays _ (kept n)).1, fun n _ => kept n⟩
  | cons a rest inductionHypothesis =>
      obtain ⟨later, kept⟩ := inductionHypothesis admitted.2 there
      refine ⟨.cons admitted.1 later, fun n beyond => ?_⟩
      cases n with
      | zero => cases beyond
      | succ n =>
          rw [stateAt_succ_first]
          exact kept n (Nat.le_of_succ_le_succ beyond)

/-! ### The helpful process -/

section Helpful

variable {Process Measure : Type*} {smaller : Measure → Measure → Prop}

/-- What a step short of the goal does: it reaches the goal, comes closer to it, or is a step of
another process than the helpful one, which it leaves the helpful one. -/
inductive Approaches (M : Machine State Action) (smaller : Measure → Measure → Prop)
    (own : Process → Action → Prop) (helpful : State → Process) (measure : State → Measure)
    (goal : State → Prop) (s : State) (a : Action) : Prop where
  | reached (there : goal (M.next s a))
  | closer (less : smaller (measure (M.next s a)) (measure s))
  | waits (same : measure (M.next s a) = measure s) (still : helpful (M.next s a) = helpful s)
      (other : ¬ own (helpful s) a)

/-- Every run in which a process that stays the helpful one acts in the end reaches the goal. -/
theorem eventually_of_response (wellFounded : WellFounded smaller) (own : Process → Action → Prop)
    (helpful : State → Process) (measure : State → Measure) (I goal : State → Prop)
    {s : State} {schedule : Nat → Action} {n : Nat}
    (step : ∀ m, n ≤ m → I (M.stateAt s schedule m) → ¬ goal (M.stateAt s schedule m) →
      I (M.stateAt s schedule (m + 1)) ∧
        M.Approaches smaller own helpful measure goal (M.stateAt s schedule m) (schedule m))
    (response : ∀ p k, (∀ m, k ≤ m → I (M.stateAt s schedule m) ∧
        ¬ goal (M.stateAt s schedule m) ∧ helpful (M.stateAt s schedule m) = p) →
      ∃ m, k ≤ m ∧ own p (schedule m))
    (start : I (M.stateAt s schedule n)) :
    ∃ m, n ≤ m ∧ goal (M.stateAt s schedule m) := by
  induction size : measure (M.stateAt s schedule n) using wellFounded.induction
    generalizing n with
  | _ size' inductionHypothesis =>
      subst size
      by_contra never
      have short : ∀ m, n ≤ m → ¬ goal (M.stateAt s schedule m) :=
        fun m later reached => never ⟨m, later, reached⟩
      -- a smaller measure at any later time would lead to the goal
      have large : ∀ m, n ≤ m → I (M.stateAt s schedule m) →
          ¬ smaller (measure (M.stateAt s schedule m)) (measure (M.stateAt s schedule n)) := by
        intro m later kept less
        obtain ⟨m', later', reached⟩ := inductionHypothesis _ less
          (fun k after => step k (Nat.le_trans later after)) kept rfl
        exact never ⟨m', Nat.le_trans later later', reached⟩
      -- so nothing but the other processes moves
      have frozen : ∀ m, n ≤ m → I (M.stateAt s schedule m) ∧
          measure (M.stateAt s schedule m) = measure (M.stateAt s schedule n) ∧
            helpful (M.stateAt s schedule m) = helpful (M.stateAt s schedule n) := by
        intro m later
        induction later with
        | refl => exact ⟨start, rfl, rfl⟩
        | @step m later hypothesis =>
            obtain ⟨kept, same, still⟩ := hypothesis
            obtain ⟨kept', approaches⟩ := step m later kept (short m later)
            have later' := Nat.le_succ_of_le later
            cases approaches with
            | reached there => exact absurd there (short (m + 1) later')
            | closer less =>
                rw [same] at less
                exact absurd less (large (m + 1) later' kept')
            | waits same' still' other => exact ⟨kept', same'.trans same, still'.trans still⟩
      obtain ⟨m, later, acts⟩ := response _ n fun m later =>
        ⟨(frozen m later).1, short m later, (frozen m later).2.2⟩
      obtain ⟨kept, same, still⟩ := frozen m later
      obtain ⟨kept', approaches⟩ := step m later kept (short m later)
      have later' := Nat.le_succ_of_le later
      cases approaches with
      | reached there => exact short (m + 1) later' there
      | closer less =>
          rw [same] at less
          exact large (m + 1) later' kept' less
      | waits same' still' other => exact other (still ▸ acts)

end Helpful

end Machine

end Library

/-
Module: EduMuduo.Proofs.LoopPerThread
Layer: Proofs
Purpose: Whether a thread owns one event loop at most.  Nothing ever stores a loop in
  `t_loopInThisThread`, so the test of the constructor never fires: a second loop on a thread is
  constructed like the first, and the pointer is null also on a thread that owns a loop.  The rule
  holds only as long as no constructor has returned; without the pointer it holds exactly when no
  constructor returns on a thread that owns a live loop.
Imports: EduMuduo.Core.ThreadLoop
Trusted boundary: none (fully proved)
Main exports: Process.OneLoopPerThread, Process.SecondNeverCompletes, Process.pointer_null,
  one_loop_per_thread_iff
-/
import EduMuduo.Core.ThreadLoop

namespace EduMuduo

open Library

namespace Process

/-- At most one live loop belongs to each thread, and the pointer is set exactly while one does. -/
structure OneLoopPerThread (s : Process) : Prop where
  atMostOne : ∀ t, (s.owned t).length ≤ 1
  pointer : ∀ t, (s.loopInThisThread t).isSome = true ↔ s.owned t ≠ []

/-- A constructor that returns has started on a thread that owned no live loop. -/
def SecondNeverCompletes (s : Process) (schedule : List LoopLifeAction) : Prop :=
  ∀ t front middle rest,
    schedule = front ++ .construct t :: (middle ++ .constructorReturns t :: rest) →
      .constructorReturns t ∉ middle → (eventLoops.exec s front).owned t = []

/-- The constructor that returns does so on a thread that owns no live loop. -/
def Alone (s : Process) : LoopLifeAction → Prop
  | .constructorReturns t => s.owned t = []
  | _ => True

/-! ### What one step does -/

/-- No step stores a loop in a pointer. -/
theorem next_pointer {s : Process} (null : ∀ t, s.loopInThisThread t = none)
    (action : LoopLifeAction) (t : Tid) : (s.next action).loopInThisThread t = none := by
  cases action with
  | construct _ | initializerFails _ => exact null t
  | testPointer t' =>
      rw [next]
      split <;> exact null t
  | constructorReturns t' =>
      rw [next]
      split <;> exact null t
  | destroy t' loop =>
      rw [next, setLoopInThisThread]
      dsimp only
      split
      · rfl
      · exact null t

/-- The pointer of every thread is null in every reachable state. -/
theorem pointer_null {s : Process} (reachable : eventLoops.Reachable s) (t : Tid) :
    s.loopInThisThread t = none := by
  revert t
  apply reachable.invariant (I := fun s => ∀ t, s.loopInThisThread t = none)
  · rintro _ rfl t
    rfl
  · intro s action _ null _
    exact next_pointer null action

/-- A constructor that returns adds a loop to its thread and to no other. -/
theorem owned_constructorReturns {s : Process} {t : Tid}
    (guard : s.Enabled (.constructorReturns t)) :
    ∃ loop, ∀ t', (s.next (.constructorReturns t)).owned t' =
      s.owned t' ++ if t' = t then [loop] else [] := by
  obtain ⟨-, loop, tested⟩ := guard
  refine ⟨loop, fun t' => ?_⟩
  rw [next, tested]
  by_cases same : t' = t
  · simp [owned, setPoint, same]
  · simp [owned, setPoint, same, Ne.symm same]

/-- No other step adds one. -/
theorem owned_sublist (s : Process) {action : LoopLifeAction}
    (other : ∀ t, action ≠ .constructorReturns t) (t : Tid) :
    ((s.next action).owned t).Sublist (s.owned t) := by
  have same : ∀ {s' : Process}, s'.live = s.live → (s'.owned t).Sublist (s.owned t) := by
    intro s' live
    have equal : s'.owned t = s.owned t := by rw [owned, live, owned]
    exact equal ▸ List.Sublist.refl _
  cases action with
  | construct _ | initializerFails _ => exact same rfl
  | testPointer t' =>
      apply same
      rw [next]
      split <;> rfl
  | constructorReturns t' => exact absurd rfl (other t')
  | destroy t' loop =>
      apply List.Sublist.map
      apply List.Sublist.filter
      exact List.filter_sublist

/-! ### Whole runs -/

/-- Without a constructor that returns there is no live loop. -/
theorem owned_of_none {s : Process} (empty : ∀ t, s.owned t = [])
    {schedule : List LoopLifeAction} (none : ∀ t, .constructorReturns t ∉ schedule) (t : Tid) :
    (eventLoops.exec s schedule).owned t = [] := by
  induction schedule generalizing s with
  | nil => exact empty t
  | cons action rest inductionHypothesis =>
      apply inductionHypothesis
      · intro t'
        have other : ∀ t, action ≠ .constructorReturns t :=
          fun t same => none t (same ▸ List.mem_cons_self)
        exact List.sublist_nil.mp (empty t' ▸ s.owned_sublist other t')
      · exact fun t' member => none t' (List.mem_cons_of_mem _ member)

/-- One step keeps the bound exactly when no second loop is completed. -/
theorem atMostOne_next_iff {s : Process} (bound : ∀ t, (s.owned t).length ≤ 1)
    {action : LoopLifeAction} (guard : s.Enabled action) :
    (∀ t, ((s.next action).owned t).length ≤ 1) ↔ s.Alone action := by
  by_cases completes : ∃ t, action = .constructorReturns t
  · obtain ⟨t, rfl⟩ := completes
    obtain ⟨loop, owned⟩ := owned_constructorReturns guard
    constructor
    · intro after
      have count := after t
      rw [owned t, if_pos rfl, List.length_append, List.length_singleton] at count
      exact List.length_eq_zero_iff.mp (by omega)
    · intro alone t'
      rw [owned t']
      by_cases same : t' = t
      · have empty : s.owned t' = [] := same ▸ alone
        rw [empty, if_pos same]
        exact Nat.le_refl 1
      · rw [if_neg same, List.append_nil]
        exact bound t'
  · rw [not_exists] at completes
    have alone : s.Alone action := by
      cases action with
      | constructorReturns t => exact absurd rfl (completes t)
      | construct _ | initializerFails _ | testPointer _ | destroy _ _ => trivial
    apply iff_of_true _ alone
    intro t
    exact Nat.le_trans (s.owned_sublist completes t).length_le (bound t)

/-- Behind a constructor that has returned the thread owns a loop, and its pointer is null. -/
theorem not_rule_of_returns {front rest : List LoopLifeAction} {t : Tid}
    (admitted : eventLoops.Admits .start (front ++ .constructorReturns t :: rest)) :
    ¬ (eventLoops.exec .start (front ++ [.constructorReturns t])).OneLoopPerThread := by
  intro rule
  obtain ⟨before, guard, -⟩ := Machine.admits_append.mp admitted
  obtain ⟨loop, owned⟩ := owned_constructorReturns guard
  have after := rule.pointer t
  rw [Machine.exec_append, Machine.exec_cons, Machine.exec_nil,
    pointer_null ((before.reachable rfl).step guard)] at after
  have some : (eventLoops.next (eventLoops.exec .start front)
      (.constructorReturns t)).owned t ≠ [] := by
    change (Process.next _ _).owned t ≠ []
    rw [owned t, if_pos rfl]
    simp
  simp [some] at after

/-- As long as no constructor has returned, no thread owns a loop and no pointer is set. -/
theorem rule_of_none {schedule : List LoopLifeAction}
    (admitted : eventLoops.Admits .start schedule)
    (none : ∀ t, .constructorReturns t ∉ schedule) :
    (eventLoops.exec .start schedule).OneLoopPerThread := by
  have empty : ∀ t, (eventLoops.exec .start schedule).owned t = [] :=
    owned_of_none (fun _ => rfl) none
  constructor
  · intro t
    rw [empty t]
    exact Nat.zero_le 1
  · intro t
    rw [empty t, pointer_null (admitted.reachable rfl)]
    simp

end Process

/-- In every run the rule of one loop per thread, with the pointer that is to enforce it, holds
throughout if and only if no constructor returns; and no thread ever owns two live loops if and
only if no constructor returns on a thread that owns one. -/
theorem one_loop_per_thread_iff (schedule : List LoopLifeAction)
    (admitted : eventLoops.Admits .start schedule) :
    (Process.start.SecondNeverCompletes schedule ∧
        (∀ front rest, schedule = front ++ rest →
          (eventLoops.exec .start front).OneLoopPerThread) ↔
      ∀ t, .constructorReturns t ∉ schedule) ∧
    ((∀ front rest, schedule = front ++ rest →
        ∀ t, ((eventLoops.exec .start front).owned t).length ≤ 1) ↔
      ∀ front action rest, schedule = front ++ action :: rest →
        (eventLoops.exec .start front).Alone action) := by
  constructor
  · constructor
    · rintro ⟨-, rule⟩ t member
      obtain ⟨front, rest, split⟩ := List.append_of_mem member
      apply Process.not_rule_of_returns (split ▸ admitted)
      exact rule (front ++ [.constructorReturns t]) rest (by simp [split])
    · intro none
      constructor
      · intro t front middle rest split _
        exact absurd (by rw [split]; simp) (none t)
      · intro front rest split
        apply Process.rule_of_none (Machine.admits_append.mp (split ▸ admitted)).1
        intro t member
        exact none t (split ▸ List.mem_append_left rest member)
  · have step : ∀ s action, (∀ t, (Process.owned s t).length ≤ 1) →
        eventLoops.enabled s action →
          ((∀ t, (Process.owned (eventLoops.next s action) t).length ≤ 1) ↔ s.Alone action) :=
      fun _ _ bound guard => Process.atMostOne_next_iff bound guard
    exact Machine.throughout_iff (I := fun s => ∀ t, (Process.owned s t).length ≤ 1) step
      (fun _ => Nat.zero_le 1) admitted

/-- Two threads are in a constructor when a member initializer of one of them fails. -/
theorem one_loop_per_thread_demo :
    (eventLoops.exec .start
      [.construct 7, .construct 8, .initializerFails 7]).OneLoopPerThread :=
  ((one_loop_per_thread_iff [.construct 7, .construct 8, .initializerFails 7]
    (by decide)).1.mpr (by simp)).2 _ [] rfl

/-- Two loops on one thread, of which neither is destroyed. -/
theorem second_loop_completes :
    eventLoops.Admits .start
        [.construct 7, .testPointer 7, .constructorReturns 7,
          .construct 7, .testPointer 7, .constructorReturns 7] ∧
      ¬ Process.start.SecondNeverCompletes
        [.construct 7, .testPointer 7, .constructorReturns 7,
          .construct 7, .testPointer 7, .constructorReturns 7] ∧
      ¬ (eventLoops.exec .start
        [.construct 7, .testPointer 7, .constructorReturns 7,
          .construct 7, .testPointer 7, .constructorReturns 7]).OneLoopPerThread := by
  refine ⟨by decide, ?_, ?_⟩
  · intro never
    have empty := never 7 [.construct 7, .testPointer 7, .constructorReturns 7]
      [.testPointer 7] [] rfl (by decide)
    revert empty
    decide
  · intro rule
    have bound := rule.atMostOne 7
    revert bound
    decide

end EduMuduo

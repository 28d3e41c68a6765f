/-
Module: EduMuduo.Proofs.OutsideCalls
Layer: Proofs
Purpose: What the loop thread queues for itself outside its handlers and functors: before `loop()`,
  or from a destructor of a functor that has been executed.  There `queueInLoop` writes no wakeup,
  although the next poll comes before the next swap.  The loop enters that poll with a positive
  counter only if the counter was positive already, or if some other thread's `wakeup()` comes in
  between.
Imports: EduMuduo.Proofs.Wakeup
Trusted boundary: none (fully proved)
Main exports: LoopPoint.OutsideCode, EventLoop.flag_iff, EventLoop.counter_pos_iff,
  EventLoop.NotStranded, EventLoop.WokenOtherwise, outside_calls_not_stranded_iff
-/
import EduMuduo.Proofs.Wakeup

namespace EduMuduo

open Library

namespace LoopPoint

/-- User code that is neither a handler nor the body of a functor. -/
def OutsideCode (point : LoopPoint) : Prop := point = .outside ∨ point = .releasing

/-- From here the loop comes to the poll before it comes to the swap, and empties no counter. -/
def BeforePoll (point : LoopPoint) : Prop := point.OutsideCode ∨ point = .test

/-- From here the loop comes to the swap before it comes to the next poll. -/
def BeforeSwap (point : LoopPoint) : Prop :=
  point = .polling ∨ point = .handling ∨ point = .inHandler ∨ point = .swapping

instance (point : LoopPoint) : Decidable point.OutsideCode := inferInstanceAs (Decidable (_ ∨ _))

instance (point : LoopPoint) : Decidable point.BeforePoll := inferInstanceAs (Decidable (_ ∨ _))

instance (point : LoopPoint) : Decidable point.BeforeSwap := inferInstanceAs (Decidable (_ ∨ _))

end LoopPoint

namespace EventLoop

variable {Functor : Type}

/-- The flag is set from the start of `doPendingFunctors` to the end of its loop. -/
theorem flag_iff {s : EventLoop Functor} (reachable : (eventLoop Functor).Reachable s) :
    s.callingPendingFunctors = true ↔ s.point.Flagged := by
  apply reachable.invariant
    (I := fun s => s.callingPendingFunctors = true ↔ s.point.Flagged)
  · intro s construct
    cases construct
    simp [construct, LoopPoint.Flagged]
  · intro s action _ flag guard
    change s.Enabled action at guard
    change (s.next action).callingPendingFunctors = true ↔ (s.next action).point.Flagged
    cases action with
    | loop | poll _ | handlerReturn | call | functorReturn | destroyFunctors =>
        simpa [next, LoopPoint.Flagged, guard.1] using flag
    | doPendingFunctors | clearFlag => simp [next, LoopPoint.Flagged]
    | swap =>
        have here : s.point = .swapping := guard
        simpa [next, LoopPoint.Flagged, here] using flag
    | testQuit =>
        have here : s.point = .test := guard
        rw [next]
        split <;> simpa [LoopPoint.Flagged, here] using flag
    | handleEvent =>
        rw [next]
        split
        · exact flag
        · exact flag
        · simpa [LoopPoint.Flagged, guard.1] using flag
    | selfPush _ | selfWakeup | selfQuit | push _ _ | setQuit _ | wakeup _ => exact flag

/-- Outside the flagged part the test of `queueInLoop` writes no wakeup. -/
theorem unflagged {s : EventLoop Functor} (reachable : (eventLoop Functor).Reachable s)
    (before : s.point.BeforePoll) : s.callingPendingFunctors = false := by
  rw [← Bool.not_eq_true, flag_iff reachable]
  rcases before with (here | here) | here <;> simp [LoopPoint.Flagged, here]

/-! ### From the call to the poll -/

/-- The step lemma: before the poll only another thread's wakeup lifts the counter, and nothing
empties it; the one way on is into the poll. -/
theorem next_beforePoll {s : EventLoop Functor} (reachable : (eventLoop Functor).Reachable s)
    (before : s.point.BeforePoll) {action : LoopAction Functor} (guard : s.Enabled action) :
    (s.next action).point.BeforeSwap ∨
      (s.next action).point.BeforePoll ∧
        (0 < (s.next action).wakeupFd ↔ 0 < s.wakeupFd ∨ ∃ thread, action = .wakeup thread) := by
  have elsewhere : ∀ {point}, s.point = point → ¬ point.BeforePoll → False :=
    fun here other => other (here ▸ before)
  cases action with
  | loop => exact .inr ⟨.inr rfl, by simp [next]⟩
  | testQuit =>
      rw [next]
      split
      · exact .inr ⟨.inl (.inl rfl), by simp⟩
      · exact .inl (.inl rfl)
  | destroyFunctors => exact .inr ⟨.inr rfl, by simp [next]⟩
  | selfPush functor => exact .inr ⟨before, by simp [next, pushFunctor]⟩
  | selfWakeup => exact .inr ⟨before, by simp [next, unflagged reachable before]⟩
  | selfQuit => exact .inr ⟨before, by simp [next]⟩
  | push thread functor => exact .inr ⟨before, by simp [next, pushFunctor, setThread]⟩
  | setQuit thread => exact .inr ⟨before, by simp [next, setThread]⟩
  | wakeup thread => exact .inr ⟨before, by simp [next, setThread]⟩
  | poll active => exact (elsewhere guard.1 (by decide)).elim
  | handleEvent => exact (elsewhere guard.1 (by decide)).elim
  | handlerReturn => exact (elsewhere guard.1 (by decide)).elim
  | doPendingFunctors => exact (elsewhere guard.1 (by decide)).elim
  | swap => exact (elsewhere guard (by decide)).elim
  | call => exact (elsewhere guard.1 (by decide)).elim
  | functorReturn => exact (elsewhere guard.1 (by decide)).elim
  | clearFlag => exact (elsewhere guard.1 (by decide)).elim

/-- From the poll there is no way round the swap. -/
theorem next_beforeSwap {s : EventLoop Functor} (before : s.point.BeforeSwap)
    {action : LoopAction Functor} (guard : s.Enabled action) (other : action ≠ .swap) :
    (s.next action).point.BeforeSwap := by
  have elsewhere : ∀ {point}, s.point = point → ¬ point.BeforeSwap → False :=
    fun here other => other (here ▸ before)
  cases action with
  | poll active => exact .inr (.inl rfl)
  | handleEvent =>
      rw [next]
      split
      · exact before
      · exact before
      · exact .inr (.inr (.inl rfl))
  | handlerReturn => exact .inr (.inl rfl)
  | doPendingFunctors => exact .inr (.inr (.inr rfl))
  | swap => exact absurd rfl other
  | selfPush _ | selfWakeup | selfQuit | push _ _ | setQuit _ | wakeup _ => exact before
  | loop => exact (elsewhere guard.1 (by decide)).elim
  | testQuit => exact (elsewhere guard (by decide)).elim
  | call => exact (elsewhere guard.1 (by decide)).elim
  | functorReturn => exact (elsewhere guard.1 (by decide)).elim
  | clearFlag => exact (elsewhere guard.1 (by decide)).elim
  | destroyFunctors => exact (elsewhere guard.1 (by decide)).elim

theorem exec_beforeSwap {s : EventLoop Functor} (before : s.point.BeforeSwap)
    {middle : List (LoopAction Functor)} (admitted : (eventLoop Functor).Admits s middle)
    (unswapped : .swap ∉ middle) :
    ((eventLoop Functor).exec s middle).point.BeforeSwap := by
  induction middle generalizing s with
  | nil => exact before
  | cons action rest inductionHypothesis =>
      rw [List.mem_cons, not_or] at unswapped
      apply inductionHypothesis _ admitted.2 unswapped.2
      exact next_beforeSwap before admitted.1 (Ne.symm unswapped.1)

/-- The run lemma: on the way to the test without a swap the counter becomes positive only through
the wakeup of another thread. -/
theorem counter_pos_iff {s : EventLoop Functor} (reachable : (eventLoop Functor).Reachable s)
    (before : s.point.BeforePoll) {middle : List (LoopAction Functor)}
    (admitted : (eventLoop Functor).Admits s middle) (unswapped : .swap ∉ middle)
    (testing : ((eventLoop Functor).exec s middle).point = .test) :
    0 < ((eventLoop Functor).exec s middle).wakeupFd ↔
      0 < s.wakeupFd ∨ ∃ thread, .wakeup thread ∈ middle := by
  induction middle generalizing s with
  | nil => simp
  | cons action rest inductionHypothesis =>
      rw [List.mem_cons, not_or] at unswapped
      obtain ⟨guard, later⟩ := admitted
      rcases next_beforePoll reachable before guard with polls | ⟨still, counter⟩
      · -- the poll has been entered, so the test is not reached without a swap
        have behind := exec_beforeSwap polls later unswapped.2
        rw [Machine.exec_cons] at testing
        change ((eventLoop Functor).exec (s.next action) rest).point = .test at testing
        rw [testing] at behind
        rcases behind with here | here | here | here <;> cases here
      · have rest := inductionHypothesis (reachable.step guard) still later unswapped.2 testing
        rw [Machine.exec_cons]
        refine rest.trans ((or_congr_left counter).trans ?_)
        simp only [List.mem_cons, exists_or, or_assoc, eq_comm]

/-! ### Calls and polls of a run -/

/-- The loop does not enter the poll with the functor of an outside call still unswapped and a
counter at zero. -/
def NotStranded (s : EventLoop Functor) (schedule : List (LoopAction Functor)) : Prop :=
  ∀ front functor middle rest,
    schedule = front ++ .selfPush functor :: (middle ++ .testQuit :: rest) →
      ((eventLoop Functor).exec s front).point.OutsideCode → .swap ∉ middle →
        ((eventLoop Functor).exec s (front ++ .selfPush functor :: middle)).quit = false →
          0 < ((eventLoop Functor).exec s (front ++ .selfPush functor :: middle)).wakeupFd

/-- Between an outside call and the poll behind it the counter is positive for another reason: it
was before the call, or another thread's wakeup comes in time. -/
def WokenOtherwise (s : EventLoop Functor) (schedule : List (LoopAction Functor)) : Prop :=
  ∀ front functor middle rest,
    schedule = front ++ .selfPush functor :: (middle ++ .testQuit :: rest) →
      ((eventLoop Functor).exec s front).point.OutsideCode → .swap ∉ middle →
        ((eventLoop Functor).exec s (front ++ .selfPush functor :: middle)).quit = false →
          0 < ((eventLoop Functor).exec s front).wakeupFd ∨ ∃ thread, .wakeup thread ∈ middle

/-- Until a swap the functor stays in `pendingFunctors_`. -/
theorem mem_pendingFunctors {s : EventLoop Functor} {functor : Functor}
    (pending : functor ∈ s.pendingFunctors) {middle : List (LoopAction Functor)}
    (unswapped : .swap ∉ middle) :
    functor ∈ ((eventLoop Functor).exec s middle).pendingFunctors := by
  induction middle generalizing s with
  | nil => exact pending
  | cons action rest inductionHypothesis =>
      rw [List.mem_cons, not_or] at unswapped
      apply inductionHypothesis _ unswapped.2
      change functor ∈ (s.next action).pendingFunctors
      cases action with
      | swap => exact absurd rfl unswapped.1
      | selfPush _ | push _ _ => exact List.mem_append_left _ pending
      | testQuit | handleEvent =>
          rw [next]
          split <;> exact pending
      | loop | poll _ | handlerReturn | doPendingFunctors | call | functorReturn | clearFlag
      | destroyFunctors | selfWakeup | selfQuit | setQuit _ | wakeup _ => exact pending

end EventLoop

/-- In every run of a loop with any number of other threads, no functor that the loop thread queues
outside its handlers and functors waits in a poll that is entered with the counter at zero, if and
only if for each such call the counter was positive already or another thread's wakeup comes
between the call and the poll. -/
theorem outside_calls_not_stranded_iff {Functor : Type} (schedule : List (LoopAction Functor))
    (admitted : (eventLoop Functor).Admits .construct schedule) :
    (EventLoop.construct.NotStranded schedule ↔ EventLoop.construct.WokenOtherwise schedule) ∧
      ∀ front functor middle rest,
        schedule = front ++ .selfPush functor :: (middle ++ rest) → .swap ∉ middle →
          functor ∈ ((eventLoop Functor).exec .construct
            (front ++ .selfPush functor :: middle)).pendingFunctors := by
  constructor
  · apply forall₄_congr
    intro front functor middle rest
    apply forall₃_congr
    intro split outside unswapped
    apply forall_congr'
    intro _
    rw [split] at admitted
    obtain ⟨before, pushes, later⟩ := Machine.admits_append.mp admitted
    obtain ⟨between, testing, -⟩ := Machine.admits_append.mp later
    have reachable := before.reachable rfl
    have counter := EventLoop.counter_pos_iff (reachable.step pushes) (.inl outside) between
      unswapped testing
    rw [Machine.exec_append, Machine.exec_cons]
    exact counter
  · intro front functor middle rest _ unswapped
    rw [Machine.exec_append, Machine.exec_cons]
    apply EventLoop.mem_pendingFunctors _ unswapped
    exact List.mem_append_right _ (List.mem_singleton_self functor)

/-- A call before `loop()` and another thread's wakeup before the first poll. -/
theorem outside_calls_not_stranded_demo :
    (EventLoop.construct : EventLoop Nat).NotStranded
      [.selfPush 1, .selfWakeup, .push 0 2, .loop, .wakeup 0, .testQuit] := by
  apply (outside_calls_not_stranded_iff _ (by decide)).1.mpr
  intro front functor middle rest split _ _ _
  right
  cases front with
  | nil =>
      rw [List.nil_append, List.cons.injEq] at split
      -- the test is the last action of the run, so everything else lies in between
      match middle with
      | [] | [_] | [_, _] | [_, _, _] => simp at split
      | [_, _, _, woken] =>
          simp only [List.cons_append, List.nil_append, List.cons.injEq] at split
          exact ⟨0, by simp [← split.2.2.2.2.1]⟩
      | _ :: _ :: _ :: _ :: _ :: _ => simp at split
  | cons action front =>
      have member : .selfPush functor ∈
          [LoopAction.selfWakeup, .push 0 2, .loop, .wakeup 0, .testQuit] := by
        rw [(List.cons.inj split).2]
        exact List.mem_append_right _ List.mem_cons_self
      simp at member

/-- A functor queued before `loop()` is pending in the first poll, and nothing wakes the loop. -/
theorem outside_call_is_stranded :
    (eventLoop Nat).Admits .construct [.selfPush 1, .selfWakeup, .loop, .testQuit] ∧
      ¬ (EventLoop.construct : EventLoop Nat).NotStranded
        [.selfPush 1, .selfWakeup, .loop, .testQuit] := by
  constructor
  · decide
  · intro never
    have positive := never [] 1 [.selfWakeup, .loop] [] rfl (.inl rfl) (by decide) rfl
    revert positive
    decide

end EduMuduo

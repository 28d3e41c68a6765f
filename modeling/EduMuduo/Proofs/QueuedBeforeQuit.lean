/-
Module: EduMuduo.Proofs.QueuedBeforeQuit
Layer: Proofs
Purpose: What becomes of a functor that a thread queues before it makes the loop quit.  The loop
  tests `quit_` once in an iteration and takes the pending functors once, later in the same
  iteration.  From the store of `quit_` on there is at most one more swap, so the place of the
  loop at the store decides.
Imports: EduMuduo.Proofs.TaskQueue
Trusted boundary: none
Main exports: EventLoop.Taken, EventLoop.taken_next_iff, queued_before_quit_run_iff,
  queued_before_quit_dropped
-/
import EduMuduo.Proofs.TaskQueue

namespace EduMuduo

open Library

/-- The points from which the loop comes to the swap before it comes to the test. -/
def LoopPoint.SwapsBeforeTest (point : LoopPoint) : Prop :=
  point = .polling ∨ point = .handling ∨ point = .inHandler ∨ point = .swapping

namespace EventLoop

variable {Functor : Type}

/-- The functor that was pushed behind `position` others has left `pendingFunctors_`, or the swap
is still to come in this iteration. -/
def Taken (s : EventLoop Functor) (position : Nat) : Prop :=
  s.point.SwapsBeforeTest ∨ position < s.executed.length + s.rest.length

/-- What has run, what is left of the batch and what is pending are what was pushed. -/
theorem executed_append {s : EventLoop Functor} (reachable : (eventLoop Functor).Reachable s) :
    s.executed.map Prod.snd ++ (s.rest ++ s.pendingFunctors) = s.pushed.map Prod.snd :=
  BatchHistory.executed_append_waiting
    ((eventLoop_simulates_batching Functor).reachable reachable)

/-- The history of the pushes only grows. -/
theorem pushed_next (s : EventLoop Functor) (action : LoopAction Functor) :
    s.pushed <+: (s.next action).pushed := by
  cases action with
  | push thread functor => exact List.prefix_append _ _
  | selfPush functor => exact List.prefix_append _ _
  | testQuit =>
      rw [next]
      split <;> exact List.prefix_rfl
  | handleEvent =>
      rw [next]
      split <;> exact List.prefix_rfl
  | loop | poll _ | handlerReturn | doPendingFunctors | swap | call | functorReturn | clearFlag
  | destroyFunctors | selfWakeup | selfQuit | setQuit _ | wakeup _ => exact List.prefix_rfl

theorem pushed_exec (s : EventLoop Functor) (schedule : List (LoopAction Functor)) :
    s.pushed <+: ((eventLoop Functor).exec s schedule).pushed := by
  induction schedule generalizing s with
  | nil => exact List.prefix_rfl
  | cons action later inductionHypothesis =>
      exact (s.pushed_next action).trans (inductionHypothesis (s.next action))

/-- Only the beginning of `loop()` takes a quit back. -/
theorem quit_next {s : EventLoop Functor} (quit : s.quit = true)
    {action : LoopAction Functor} (inside : action ≠ .loop) : (s.next action).quit = true := by
  cases action with
  | loop => exact absurd rfl inside
  | testQuit =>
      rw [next]
      split <;> exact quit
  | handleEvent =>
      rw [next]
      split <;> exact quit
  | selfQuit | setQuit _ => rfl
  | poll _ | handlerReturn | doPendingFunctors | swap | call | functorReturn | clearFlag
  | destroyFunctors | selfPush _ | selfWakeup | push _ _ | wakeup _ => exact quit

/-- A step between two points of which both or neither come before the swap, and that runs no
functor, takes none. -/
theorem taken_iff_of_same {s t : EventLoop Functor} (position : Nat)
    (points : t.point.SwapsBeforeTest ↔ s.point.SwapsBeforeTest)
    (executed : t.executed = s.executed) (rest : t.rest = s.rest) :
    t.Taken position ↔ s.Taken position := by
  rw [Taken, Taken, points, executed, rest]

/-- The step lemma: once `quit_` is stored, and until `loop()` begins again, no step changes
whether a functor that has been pushed will be taken. -/
theorem taken_next_iff {s : EventLoop Functor} (reachable : (eventLoop Functor).Reachable s)
    (quit : s.quit = true) {position : Nat} (pushed : position < s.pushed.length)
    {action : LoopAction Functor} (guard : s.Enabled action) (inside : action ≠ .loop) :
    (s.next action).Taken position ↔ s.Taken position := by
  have vector := vectorInvariant reachable
  cases action with
  | loop => exact absurd rfl inside
  | testQuit =>
      have leaves : s.next .testQuit = { s with looping := false, point := .outside } := if_pos quit
      have here : s.point = .test := guard
      rw [leaves]
      exact taken_iff_of_same position (by simp [LoopPoint.SwapsBeforeTest, here]) rfl rfl
  | handleEvent =>
      rw [next]
      split
      · exact Iff.rfl
      · exact Iff.rfl
      · exact taken_iff_of_same position (by simp [LoopPoint.SwapsBeforeTest, guard.1]) rfl rfl
  | doPendingFunctors =>
      have used : s.rest = [] := vector.rest_nil guard.1 (by decide)
      exact taken_iff_of_same position (by simp [next, LoopPoint.SwapsBeforeTest, guard.1]) rfl
        used.symm
  | swap =>
      -- the batch is used up, so with the pending functors everything pushed is taken
      have here : s.point = .swapping := guard
      have used : s.rest = [] := vector.rest_nil here (by decide)
      have all := congrArg List.length (executed_append reachable)
      rw [used, List.nil_append, List.length_append, List.length_map, List.length_map] at all
      refine iff_of_true (.inr ?_) (.inl (.inr (.inr (.inr here))))
      have batch : (s.next .swap).rest = s.pendingFunctors := by
        simp [next, rest, (vector.fresh here).2]
      rw [batch]
      exact all ▸ pushed
  | call =>
      have counts : (s.next .call).executed.length + (s.next .call).rest.length =
          s.executed.length + s.rest.length := by
        have some := guard.2
        simp only [next, rest, List.length_append, List.length_map, List.length_take,
          List.length_drop]
        omega
      rw [Taken, Taken, counts]
      simp [next, LoopPoint.SwapsBeforeTest, guard.1]
  | destroyFunctors =>
      have used : s.rest = [] := vector.rest_nil guard.1 (by decide)
      exact taken_iff_of_same position (by simp [next, LoopPoint.SwapsBeforeTest, guard.1]) rfl
        used.symm
  | poll _ | handlerReturn | functorReturn | clearFlag =>
      exact taken_iff_of_same position (by simp [next, LoopPoint.SwapsBeforeTest, guard.1]) rfl rfl
  | selfPush _ | selfWakeup | selfQuit | push _ _ | setQuit _ | wakeup _ => exact Iff.rfl

/-- The run lemma. -/
theorem taken_exec_iff {s : EventLoop Functor} (reachable : (eventLoop Functor).Reachable s)
    (quit : s.quit = true) {position : Nat} (pushed : position < s.pushed.length)
    {schedule : List (LoopAction Functor)} (admitted : (eventLoop Functor).Admits s schedule)
    (inside : .loop ∉ schedule) :
    ((eventLoop Functor).exec s schedule).Taken position ↔ s.Taken position := by
  induction schedule generalizing s with
  | nil => exact Iff.rfl
  | cons action later inductionHypothesis =>
      obtain ⟨here, onwards⟩ := not_or.mp (List.mem_cons.not.mp inside)
      have step := taken_next_iff reachable quit pushed admitted.1 (Ne.symm here)
      have grown : position < (s.next action).pushed.length :=
        Nat.lt_of_lt_of_le pushed (s.pushed_next action).length_le
      exact (inductionHypothesis (reachable.step admitted.1) (quit_next quit (Ne.symm here)) grown
        admitted.2 onwards).trans step

/-- Outside the loop what was taken has run. -/
theorem taken_outside_iff {s : EventLoop Functor} (reachable : (eventLoop Functor).Reachable s)
    (outside : s.point = .outside) (position : Nat) :
    s.Taken position ↔ position < s.executed.length := by
  have used : s.rest = [] := (vectorInvariant reachable).rest_nil outside (by decide)
  simp [Taken, used, outside, LoopPoint.SwapsBeforeTest]

/-- What was pushed behind `position` others has run when more than `position` functors have. -/
theorem executed_getElem?_iff {s : EventLoop Functor}
    (reachable : (eventLoop Functor).Reachable s) {position : Nat} {functor : Functor}
    (pushed : (s.pushed.map Prod.snd)[position]? = some functor) :
    (s.executed.map Prod.snd)[position]? = some functor ↔ position < s.executed.length := by
  constructor
  · intro ran
    have := (List.getElem?_eq_some_iff.mp ran).1
    rwa [List.length_map] at this
  · intro ran
    rw [← executed_append reachable] at pushed
    rwa [List.getElem?_append_left (by rwa [List.length_map])] at pushed

/-- From the store of `quit_` to the return of `loop()`: a functor that has been pushed runs exactly
when it was taken at the store. -/
theorem executed_iff_taken {s : EventLoop Functor} (reachable : (eventLoop Functor).Reachable s)
    {position : Nat} {functor : Functor}
    (pushed : (s.pushed.map Prod.snd)[position]? = some functor)
    {thread : ThreadId} {later : List (LoopAction Functor)}
    (admitted : (eventLoop Functor).Admits s (.setQuit thread :: later)) (once : .loop ∉ later)
    (returned : ((eventLoop Functor).exec s (.setQuit thread :: later)).point = .outside) :
    (((eventLoop Functor).exec s (.setQuit thread :: later)).executed.map
        Prod.snd)[position]? = some functor ↔ s.Taken position := by
  have atReturn := reachable.exec admitted
  have within : position < (s.pushed.map Prod.snd).length :=
    (List.getElem?_eq_some_iff.mp pushed).1
  have still : ((((eventLoop Functor).exec s (.setQuit thread :: later)).pushed.map
      Prod.snd)[position]?) = some functor := by
    obtain ⟨more, grown⟩ := s.pushed_exec (.setQuit thread :: later)
    rw [← grown, List.map_append, List.getElem?_append_left within, pushed]
  calc _ ↔ position < ((eventLoop Functor).exec s (.setQuit thread :: later)).executed.length :=
        executed_getElem?_iff atReturn still
    _ ↔ ((eventLoop Functor).exec s (.setQuit thread :: later)).Taken position :=
        (taken_outside_iff atReturn returned position).symm
    _ ↔ (s.next (.setQuit thread)).Taken position :=
        taken_exec_iff (reachable.step admitted.1) rfl (List.length_map _ ▸ within) admitted.2 once
    _ ↔ s.Taken position := Iff.rfl

end EventLoop

/-- A thread queues a functor and later calls `quit`, among any other calls.  When `loop()` returns
the functor has run if and only if at the store of `quit_` it had left `pendingFunctors_` or the
loop was between its test and the swap. -/
theorem queued_before_quit_run_iff {Functor : Type} {s : EventLoop Functor}
    (reachable : (eventLoop Functor).Reachable s) (thread : ThreadId) (functor : Functor)
    (meanwhile later : List (LoopAction Functor))
    (admitted : (eventLoop Functor).Admits s
      (.push thread functor :: meanwhile ++ .setQuit thread :: later))
    (once : .loop ∉ later)
    (returned : ((eventLoop Functor).exec s
      (.push thread functor :: meanwhile ++ .setQuit thread :: later)).point = .outside) :
    (((eventLoop Functor).exec s
        (.push thread functor :: meanwhile ++ .setQuit thread :: later)).executed.map
          Prod.snd)[s.pushed.length]? = some functor ↔
      ((eventLoop Functor).exec s (.push thread functor :: meanwhile)).Taken s.pushed.length := by
  obtain ⟨before, behind⟩ := Machine.admits_append.mp admitted
  rw [Machine.exec_append] at returned ⊢
  refine EventLoop.executed_iff_taken (reachable.exec before) ?_ behind once returned
  obtain ⟨more, grown⟩ : s.pushed ++ [(s.batches, functor)] <+:
      ((eventLoop Functor).exec s (.push thread functor :: meanwhile)).pushed :=
    EventLoop.pushed_exec (s.next (.push thread functor)) meanwhile
  rw [← grown]
  simp

/-- The loop is in `poll` when the functor comes. -/
theorem queued_before_quit_run_iff_demo :
    (((eventLoop Nat).exec .construct
      ([.loop, .testQuit] ++ [.push 1 7, .wakeup 1, .setQuit 1, .poll [.wakeupChannel],
        .wakeup 1, .handleEvent, .doPendingFunctors, .swap, .call, .functorReturn, .clearFlag,
        .destroyFunctors, .testQuit])).executed.map Prod.snd)[0]? = some 7 := by
  have running : (eventLoop Nat).Reachable ((eventLoop Nat).exec .construct [.loop, .testQuit]) :=
    (Machine.Reachable.start rfl).exec (by decide)
  rw [Machine.exec_append]
  exact (queued_before_quit_run_iff running 1 7 [.wakeup 1]
    [.poll [.wakeupChannel], .wakeup 1, .handleEvent, .doPendingFunctors, .swap, .call,
      .functorReturn, .clearFlag, .destroyFunctors, .testQuit]
    (by decide) (by decide) rfl).mpr (.inl (.inl rfl))

/-- The loop has swapped when the functor comes, and tests `quit_` before it swaps again. -/
theorem queued_before_quit_dropped :
    ¬ ∀ (s : EventLoop Nat) (thread functor : Nat) (meanwhile later : List (LoopAction Nat)),
      (eventLoop Nat).Reachable s → s.point ≠ .outside → s.quit = false →
      (eventLoop Nat).Admits s
        (.push thread functor :: meanwhile ++ .setQuit thread :: later) →
      (∀ action ∈ meanwhile ++ later, action ≠ .loop ∧ action ≠ .selfQuit ∧
        ∀ other, action ≠ .setQuit other) →
      ((eventLoop Nat).exec s
        (.push thread functor :: meanwhile ++ .setQuit thread :: later)).point = .outside →
      (((eventLoop Nat).exec s
        (.push thread functor :: meanwhile ++ .setQuit thread :: later)).executed.map
          Prod.snd)[s.pushed.length]? = some functor := by
  intro claim
  have swapped : (eventLoop Nat).Reachable ((eventLoop Nat).exec .construct
      [.loop, .testQuit, .poll [], .doPendingFunctors, .swap]) :=
    (Machine.Reachable.start rfl).exec (by decide)
  have ran := claim _ 1 7 [.wakeup 1] [.clearFlag, .destroyFunctors, .testQuit] swapped
    (by decide) rfl (by decide) (by simp) rfl
  exact absurd ran (by decide)

end EduMuduo

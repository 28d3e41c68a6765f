/-
Module: EduMuduo.Proofs.QuitRequest
Layer: Proofs
Purpose: What becomes of a `quit` that the owner of an `EventLoopThread` calls.  `loop()` begins by
  storing false into `quit_`, so a request survives exactly when it comes after that store; from
  there on nothing but the return of `loop()` ends it.
Imports: EduMuduo.Proofs.LoopThread, EduMuduo.Proofs.QueuedBeforeQuit
Trusted boundary: none
Main exports: EventLoopThread.QuitKept, EventLoopThread.KeepsQuit, quit_kept_iff,
  quit_before_loop_forgotten
-/
import EduMuduo.Proofs.LoopThread
import EduMuduo.Proofs.QueuedBeforeQuit

namespace EduMuduo

open Library

/-- `loop_` is stored and `loop()` has not returned. -/
def ThreadFuncPoint.BeforeReturn (point : ThreadFuncPoint) : Prop :=
  point = .notifying ∨ point = .entering ∨ point = .looping

namespace EventLoopThread

variable {Functor : Type}

/-- A request of the owner is in `quit_` until `loop()` returns, which it does at the next test. -/
structure QuitKept (s : EventLoopThread Functor) : Prop where
  stored : s.requested = true → s.thread.BeforeReturn → s.loop.quit = true
  returns : s.requested = true → s.Enabled (.step .testQuit) →
    (s.next (.step .testQuit)).thread = .returned

/-- `loop()` is entered before the owner requests anything. -/
def KeepsQuit (s : EventLoopThread Functor) : ThreadAction Functor → Prop
  | .enterLoop => s.requested = false
  | _ => True

instance (s : EventLoopThread Functor) : ∀ action, Decidable (s.KeepsQuit action)
  | .enterLoop => inferInstanceAs (Decidable (s.requested = false))
  | .start | .lock | .evaluate | .spuriousWakeup | .returnLoop | .storeExiting | .load
  | .callQuit | .callWakeup | .join | .constructLoop | .callbackReturn | .publish | .notify
  | .resetLoop | .destroyLoop | .throw | .catchReturn | .step _ =>
      inferInstanceAs (Decidable True)

/-- The flag decides the test. -/
theorem QuitKept.of_stored {s : EventLoopThread Functor}
    (stored : s.requested = true → s.thread.BeforeReturn → s.loop.quit = true) : s.QuitKept := by
  refine ⟨stored, fun requested enabled => ?_⟩
  have looping : s.thread = .looping := enabled.2.1
  exact if_pos (stored requested (.inr (.inr looping)))

/-- A step that makes no request and leaves the flag and the place before the return alone. -/
theorem QuitKept.mono {s t : EventLoopThread Functor} (kept : s.QuitKept)
    (requested : t.requested = true → s.requested = true)
    (thread : t.thread.BeforeReturn → s.thread.BeforeReturn)
    (flag : s.loop.quit = true → t.loop.quit = true) : t.QuitKept :=
  .of_stored fun request before => flag (kept.stored (requested request) (thread before))

/-- A step of the loop keeps a request, and stores one that it makes. -/
theorem QuitKept.step {s : EventLoopThread Functor} (kept : s.QuitKept)
    {action : LoopAction Functor} (guard : s.Enabled (.step action)) :
    (s.stepLoop action).QuitKept := by
  have inside : action ≠ .loop := by
    rintro rfl
    exact guard.2.1
  have thread : (s.stepLoop action).thread.BeforeReturn → s.thread.BeforeReturn := by
    rcases (stepLoop_points guard).1 with same | ⟨_, returned⟩
    · exact fun before => same ▸ before
    · intro before
      rw [returned] at before
      simp [ThreadFuncPoint.BeforeReturn] at before
  by_cases same : (s.stepLoop action).requested = s.requested
  · exact kept.mono (fun request => same ▸ request) thread fun quit =>
      EventLoop.quit_next quit inside
  · refine .of_stored fun _ _ => ?_
    cases action with
    | setQuit thread => rfl
    | loop | testQuit | poll _ | handleEvent | handlerReturn | doPendingFunctors | swap | call
    | functorReturn | clearFlag | destroyFunctors | selfPush _ | selfWakeup | selfQuit
    | push _ _ | wakeup _ => exact absurd rfl same

/-- A step keeps the owner's request exactly when it is not an entry of `loop()` behind it. -/
theorem quitKept_next_iff {s : EventLoopThread Functor}
    (reachable : (eventLoopThread Functor).Reachable s) (kept : s.QuitKept)
    {action : ThreadAction Functor} (guard : s.Enabled action) :
    (s.next action).QuitKept ↔ s.KeepsQuit action := by
  have points := pointInvariant reachable
  cases action with
  | enterLoop =>
      constructor
      · intro after
        by_contra requested
        have lost : false = true :=
          after.stored (Bool.not_eq_false _ ▸ requested) (.inr (.inr rfl))
        cases lost
      · intro unrequested
        exact .of_stored fun requested _ => absurd (unrequested.symm.trans requested) (by decide)
  | publish =>
      have unrequested : s.requested = false :=
        (points.unpublished (.inr (.inr (.inr guard.1)))).2.1
      exact iff_of_true
        (.of_stored fun requested _ => absurd (unrequested.symm.trans requested) (by decide)) trivial
  | callQuit =>
      refine iff_of_true (.of_stored fun _ before => ?_) trivial
      have alive : s.alive = true := by
        refine points.alive.mpr (.inr (.inr (.inl ?_)))
        rcases before with notifying | entering | looping
        · exact .inl notifying
        · exact .inr (.inl entering)
        · exact .inr (.inr (.inl looping))
      change (s.callLoop (.setQuit ownerThread)).quit = true
      rw [callLoop, if_pos alive]
      rfl
  | callWakeup =>
      refine iff_of_true (kept.mono id id fun quit => ?_) trivial
      change (s.callLoop (.wakeup ownerThread)).quit = true
      rw [callLoop]
      split <;> exact quit
  | notify => exact iff_of_true (kept.mono id (fun _ => .inl guard) id) trivial
  | step action => exact iff_of_true (kept.step guard) trivial
  | start | callbackReturn | resetLoop | destroyLoop | throw | catchReturn =>
      refine iff_of_true (kept.mono id (fun before => ?_) id) trivial
      simp [EventLoopThread.next, ThreadFuncPoint.BeforeReturn] at before
  | constructLoop =>
      refine iff_of_true (kept.mono id (fun before => ?_) id) trivial
      revert before
      rw [EventLoopThread.next]
      split <;> simp [ThreadFuncPoint.BeforeReturn]
  | lock | evaluate | spuriousWakeup | returnLoop | storeExiting | load | join =>
      exact iff_of_true (kept.mono id id id) trivial

end EventLoopThread

/-- In a run no `quit` of the owner is forgotten exactly when `loop()` is entered before the owner
calls it. -/
theorem quit_kept_iff {Functor : Type} {start : EventLoopThread Functor}
    (initial : (eventLoopThread Functor).initial start) {schedule : List (ThreadAction Functor)}
    (admitted : (eventLoopThread Functor).Admits start schedule) :
    (∀ front rest, schedule = front ++ rest →
        ((eventLoopThread Functor).exec start front).QuitKept) ↔
      ∀ front action rest, schedule = front ++ action :: rest →
        ((eventLoopThread Functor).exec start front).KeepsQuit action := by
  have begins : start.QuitKept := by
    obtain ⟨callback, rfl⟩ := initial
    exact .of_stored fun requested => Bool.noConfusion requested
  exact Machine.throughout_iff_of_reachable initial
    (fun s action reachable kept guard =>
      EventLoopThread.quitKept_next_iff reachable kept guard) begins admitted

theorem quit_kept_iff_demo :
    ((eventLoopThread Nat).exec (.construct true) demoThreadRun).QuitKept := by
  have admitted : ((eventLoopThread Nat).restrict EventLoopThread.KeepsQuit).Admits
      (.construct true) demoThreadRun := by decide +kernel
  obtain ⟨plain, keeps⟩ := Machine.admits_restrict_iff.mp admitted
  exact (quit_kept_iff ⟨true, rfl⟩ plain).mpr keeps _ [] (List.append_nil _).symm

/-- The owner gets the pointer and runs its destructor before the thread, which has just published
it, enters `loop()`. -/
theorem quit_before_loop_forgotten :
    ¬ ∀ s : EventLoopThread Nat, (eventLoopThread Nat).Reachable s → s.QuitKept := by
  intro claim
  have admitted : (eventLoopThread Nat).Admits (.construct false)
      [.start, .constructLoop, .publish, .lock, .evaluate, .returnLoop, .storeExiting, .load,
        .callQuit, .callWakeup, .notify, .enterLoop] := by decide +kernel
  have stored := (claim _ (admitted.reachable ⟨false, rfl⟩)).stored rfl (.inr (.inr rfl))
  exact absurd stored (by decide +kernel)

end EduMuduo

/-
Module: EduMuduo.Proofs.StartLoop
Layer: Proofs
Purpose: When `startLoop` waits for a thread that has ended.  The waiter looks at `loop_` only, so it
  must find the pointer between the publication and the reset: no exception may come before the
  one, and the waiter must look before the other.  Every run that misses this can end stuck.
Imports: EduMuduo.Proofs.LoopThread
Trusted boundary: none
Main exports: EventLoopThread.Stuck, EventLoopThread.ServesOwner, startLoop_not_stuck,
  startLoop_stuck_otherwise, callback_throw_stuck
-/
import EduMuduo.Proofs.LoopThread

namespace EduMuduo

open Library

namespace EventLoopThread

variable {Functor : Type}

/-- `threadFunc` has finished and `startLoop` waits with its predicate false. -/
def Stuck (s : EventLoopThread Functor) : Prop :=
  s.thread = .finished ∧ s.owner = .waiting ∧ s.loop_ = false

/-- No exception comes before the publication, and `loop_` is reset only when `startLoop` has seen
it. -/
def ServesOwner (s : EventLoopThread Functor) : ThreadAction Functor → Prop
  | .throw => s.thread = .looping
  | .resetLoop => ¬ s.owner.Starting
  | _ => True

instance (s : EventLoopThread Functor) : ∀ action, Decidable (s.ServesOwner action)
  | .throw => inferInstanceAs (Decidable (s.thread = .looping))
  | .resetLoop => inferInstanceAs (Decidable (¬ s.owner.Starting))
  | .start | .lock | .evaluate | .spuriousWakeup | .returnLoop | .storeExiting | .load
  | .callQuit | .callWakeup | .join | .constructLoop | .callbackReturn | .publish | .notify
  | .enterLoop | .destroyLoop | .catchReturn | .step _ => inferInstanceAs (Decidable True)

/-- While the owner starts the loop, the publication is still to come or the pointer is there. -/
def Serving (s : EventLoopThread Functor) : Prop :=
  s.owner.Starting → s.thread.Unpublished ∨ s.loop_ = true

/-- A step that takes neither the pointer nor the hope of one from a starting owner. -/
theorem Serving.mono {s t : EventLoopThread Functor} (serving : s.Serving)
    (owner : t.owner.Starting → s.owner.Starting)
    (thread : s.thread.Unpublished → t.thread.Unpublished ∨ t.loop_ = true)
    (pointer : s.loop_ = true → t.loop_ = true) : t.Serving := by
  intro starting
  rcases serving (owner starting) with unpublished | stored
  · exact thread unpublished
  · exact .inr (pointer stored)

theorem Serving.next {s : EventLoopThread Functor} (serving : s.Serving)
    (points : s.PointInvariant) {action : ThreadAction Functor} (guard : s.Enabled action)
    (serves : s.ServesOwner action) : (s.next action).Serving := by
  cases action with
  | start => exact fun _ => .inl (.inr (.inl rfl))
  | lock => exact serving.mono (fun _ => .inl guard) .inl id
  | evaluate => exact serving.mono (fun _ => .inr (.inl guard)) .inl id
  | spuriousWakeup => exact serving.mono (fun _ => .inr (.inr guard)) .inl id
  | load =>
      intro starting
      change (if s.loop_ then OwnerPoint.loaded else .joining).Starting at starting
      split at starting <;> simp [OwnerPoint.Starting] at starting
  | returnLoop | storeExiting | callQuit | callWakeup | join =>
      exact fun starting => absurd starting
        (by simp [EventLoopThread.next, OwnerPoint.Starting])
  | constructLoop =>
      refine serving.mono id (fun _ => .inl ?_) id
      rw [EventLoopThread.next]
      split
      · exact .inr (.inr (.inl rfl))
      · exact .inr (.inr (.inr rfl))
  | callbackReturn => exact serving.mono id (fun _ => .inl (.inr (.inr (.inr rfl)))) id
  | publish => exact fun _ => .inr rfl
  | notify => exact fun _ => .inr (points.published (.inl guard))
  | enterLoop => exact fun _ => .inr (points.published (.inr (.inl guard)))
  | resetLoop => exact fun starting => absurd starting serves
  | destroyLoop =>
      have away : ¬ s.thread.Unpublished := by
        simp [ThreadFuncPoint.Unpublished, show s.thread = .leaving from guard]
      exact serving.mono id (fun unpublished => absurd unpublished away) id
  | throw => exact fun _ => .inr (points.published (.inr (.inr (.inl serves))))
  | catchReturn =>
      have away : ¬ s.thread.Unpublished := by
        simp [ThreadFuncPoint.Unpublished, show s.thread = .caught from guard]
      exact serving.mono id (fun unpublished => absurd unpublished away) id
  | step action =>
      refine serving.mono id (fun unpublished => .inl ?_) id
      rcases (stepLoop_points guard).1 with same | ⟨looping, _⟩
      · exact same.symm ▸ unpublished
      · simp [ThreadFuncPoint.Unpublished, looping] at unpublished

end EventLoopThread

/-- `startLoop` does not wait for a thread that has finished. -/
theorem startLoop_not_stuck {Functor : Type} (s : EventLoopThread Functor)
    (reachable : ((eventLoopThread Functor).restrict EventLoopThread.ServesOwner).Reachable s) :
    ¬ s.Stuck := by
  have serving : s.Serving := by
    refine reachable.invariant (I := EventLoopThread.Serving) ?_
      fun s action before serving guard =>
        serving.next (EventLoopThread.pointInvariant before.of_restrict) guard.1 guard.2
    rintro s ⟨callback, rfl⟩ starting
    simp [EventLoopThread.construct, OwnerPoint.Starting] at starting
  rintro ⟨finished, waiting, null⟩
  rcases serving (.inr (.inr waiting)) with unpublished | stored
  · simp [ThreadFuncPoint.Unpublished, finished] at unpublished
  · exact absurd (null.symm.trans stored) (by decide)

/-- The owner gets its pointer before the thread ends. -/
theorem startLoop_not_stuck_demo :
    ¬ ((eventLoopThread Nat).exec (.construct true) demoThreadRun).Stuck := by
  refine startLoop_not_stuck _ ?_
  rw [← Machine.restrict_exec EventLoopThread.ServesOwner]
  exact (Machine.Reachable.start (M := (eventLoopThread Nat).restrict _) ⟨true, rfl⟩).exec
    (by decide +kernel)

namespace EventLoopThread

variable {Functor : Type}

/-- A starting owner that finds no pointer goes on to wait. -/
theorem waits_of_starting {s : EventLoopThread Functor} (starting : s.owner.Starting)
    (null : s.loop_ = false) :
    ∃ later, (eventLoopThread Functor).Admits s later ∧
      (eventLoopThread Functor).exec s later = { s with owner := .waiting } := by
  have evaluates (t : EventLoopThread Functor) (null : t.loop_ = false) :
      t.next .evaluate = { t with owner := .waiting } := by
    rw [EventLoopThread.next, null]
    rfl
  rcases starting with locking | looking | waiting
  · exact ⟨[.lock, .evaluate], ⟨locking, rfl, trivial⟩, evaluates (s.next .lock) null⟩
  · exact ⟨[.evaluate], ⟨looking, trivial⟩, evaluates s null⟩
  · refine ⟨[], trivial, ?_⟩
    rw [← waiting]
    rfl

/-- One more step of `threadFunc` and those of the owner. -/
theorem stuck_of_finishes {s : EventLoopThread Functor} (last : ThreadAction Functor)
    (guard : s.Enabled last) (finished : (s.next last).thread = .finished)
    (starting : (s.next last).owner.Starting) (null : (s.next last).loop_ = false) :
    ∃ later, (eventLoopThread Functor).Admits s later ∧
      ((eventLoopThread Functor).exec s later).Stuck := by
  obtain ⟨later, admitted, reaches⟩ := waits_of_starting starting null
  refine ⟨last :: later, ⟨guard, admitted⟩, ?_⟩
  rw [Machine.exec_cons]
  exact (congrArg Stuck reaches).mpr ⟨finished, rfl, null⟩

end EventLoopThread

/-- The condition is exact: behind a step that does not meet it the thread may finish with
`startLoop` still waiting. -/
theorem startLoop_stuck_otherwise {Functor : Type} {s : EventLoopThread Functor}
    (reachable : (eventLoopThread Functor).Reachable s) {action : ThreadAction Functor}
    (guard : s.Enabled action) (misses : ¬ s.ServesOwner action) :
    ∃ later, (eventLoopThread Functor).Admits (s.next action) later ∧
      ((eventLoopThread Functor).exec (s.next action) later).Stuck := by
  have points := EventLoopThread.pointInvariant reachable
  cases action with
  | throw =>
      have early : s.thread = .constructing ∨ s.thread = .inCallback := by
        rcases guard with constructing | ⟨inCallback, _⟩ | ⟨looping, _⟩
        · exact .inl constructing
        · exact .inr inCallback
        · exact absurd looping misses
      have unpublished : s.thread.Unpublished :=
        early.elim (fun here => .inr (.inl here)) fun here => .inr (.inr (.inl here))
      have starting : s.owner.Starting := by
        refine (points.starting unpublished).resolve_left fun notStarted => ?_
        simp [notStarted] at early
      exact EventLoopThread.stuck_of_finishes .catchReturn rfl rfl starting
        (points.unpublished unpublished).1
  | resetLoop =>
      exact EventLoopThread.stuck_of_finishes .destroyLoop rfl rfl
        (not_not.mp misses) rfl
  | start | lock | evaluate | spuriousWakeup | returnLoop | storeExiting | load | callQuit
  | callWakeup | join | constructLoop | callbackReturn | publish | notify | enterLoop
  | destroyLoop | catchReturn | step _ => exact absurd trivial misses

/-- The init callback throws while the owner waits. -/
theorem callback_throw_stuck :
    ¬ ∀ s : EventLoopThread Nat, (eventLoopThread Nat).Reachable s → ¬ s.Stuck := by
  intro claim
  have admitted : (eventLoopThread Nat).Admits (.construct true)
      [.start, .lock, .evaluate, .constructLoop, .throw, .catchReturn] := by decide +kernel
  exact claim _ (admitted.reachable ⟨true, rfl⟩) ⟨rfl, rfl, rfl⟩

end EduMuduo

/-
Module: EduMuduo.Proofs.LoopThread
Layer: Proofs
Purpose: What the points of `threadFunc` and of the owner say about `loop_` and about the loop it
  points to.  The loop inside an `EventLoopThread` runs as an event loop by itself does.  The
  pointer is valid exactly in the runs in which no exception leaves `loop()` and the loop is not
  destroyed between the load of the destructor and the end of its `quit`.
Imports: EduMuduo.Core.EventLoopThread
Trusted boundary: none
Main exports: EventLoopThread.PointInvariant, loop_simulates, EventLoopThread.PointerValid,
  EventLoopThread.KeepsPointer, pointer_valid_iff, handler_throw_dangles
-/
import EduMuduo.Core.EventLoopThread

namespace EduMuduo

open Library

namespace ThreadFuncPoint

/-- Before the critical section that stores `loop_`. -/
def Unpublished (point : ThreadFuncPoint) : Prop :=
  point = .notStarted ∨ point = .constructing ∨ point = .inCallback ∨ point = .publishing

/-- Before `loop()` is entered. -/
def BeforeLoop (point : ThreadFuncPoint) : Prop :=
  point.Unpublished ∨ point = .notifying ∨ point = .entering

/-- `loop_` is stored and not yet reset. -/
def Published (point : ThreadFuncPoint) : Prop :=
  point = .notifying ∨ point = .entering ∨ point = .looping ∨ point = .returned

/-- From the constructor of the local `loop` to its destruction. -/
def HasLoop (point : ThreadFuncPoint) : Prop :=
  point = .inCallback ∨ point = .publishing ∨ point.Published ∨ point = .leaving

end ThreadFuncPoint

/-- In `startLoop`, not yet behind its `wait`. -/
def OwnerPoint.Starting (point : OwnerPoint) : Prop :=
  point = .locking ∨ point = .looking ∨ point = .waiting

instance (point : OwnerPoint) : Decidable point.Starting :=
  inferInstanceAs (Decidable (_ ∨ _ ∨ _))

/-- The owner has seen a pointer that was not null. -/
def OwnerPoint.HasSeen (point : OwnerPoint) : Prop :=
  point = .returning ∨ (∃ result, point = .started result) ∨ point = .loaded ∨ point = .quitting

namespace EventLoopThread

variable {Functor : Type}

structure PointInvariant (s : EventLoopThread Functor) : Prop where
  constructed : s.owner = .constructed → s.thread = .notStarted
  unpublished : s.thread.Unpublished →
    s.loop_ = false ∧ s.requested = false ∧ ¬ s.owner.HasSeen
  starting : s.thread.Unpublished → s.thread = .notStarted ∨ s.owner.Starting
  published : s.thread.Published → s.loop_ = true
  leaving : s.thread = .leaving → s.loop_ = false
  alive : s.alive = true ↔ s.thread.HasLoop

/-- A step of the loop moves `threadFunc` only where `loop()` returns, and is a request of the
owner only behind `startLoop`. -/
theorem stepLoop_points {s : EventLoopThread Functor} {action : LoopAction Functor}
    (guard : s.Enabled (.step action)) :
    ((s.stepLoop action).thread = s.thread ∨
        s.thread = .looping ∧ (s.stepLoop action).thread = .returned) ∧
      ((s.stepLoop action).requested = s.requested ∨ s.owner = .started true) := by
  cases action with
  | testQuit =>
      refine ⟨?_, .inl rfl⟩
      rw [stepLoop]
      split
      · exact .inr ⟨guard.2.1, rfl⟩
      · exact .inl rfl
  | setQuit thread =>
      refine ⟨.inl rfl, ?_⟩
      rcases guard.2.1 with other | owner
      · exact .inl (by simp [stepLoop, other])
      · exact .inr owner
  | loop | poll _ | handleEvent | handlerReturn | doPendingFunctors | swap | call
  | functorReturn | clearFlag | destroyFunctors | selfPush _ | selfWakeup | selfQuit
  | push _ _ | wakeup _ => exact ⟨.inl rfl, .inl rfl⟩

/-- A step that leaves `threadFunc`, the pointer and the loop's life alone keeps the invariant when
the owner has seen nothing before the publication. -/
theorem PointInvariant.owner {s t : EventLoopThread Functor} (invariant : s.PointInvariant)
    (thread : t.thread = s.thread) (pointer : t.loop_ = s.loop_) (alive : t.alive = s.alive)
    (constructed : t.owner ≠ .constructed)
    (unseen : s.loop_ = false → s.requested = false → ¬ s.owner.HasSeen →
      (s.thread = .notStarted ∨ s.owner.Starting) →
      t.requested = false ∧ ¬ t.owner.HasSeen ∧ (s.thread = .notStarted ∨ t.owner.Starting)) :
    t.PointInvariant := by
  have early (unpublished : s.thread.Unpublished) :=
    have ⟨null, unrequested, seen⟩ := invariant.unpublished unpublished
    unseen null unrequested seen (invariant.starting unpublished)
  refine ⟨fun begins => absurd begins constructed, ?_, ?_, ?_, ?_, ?_⟩
  · rw [thread, pointer]
    exact fun unpublished => ⟨(invariant.unpublished unpublished).1, (early unpublished).1,
      (early unpublished).2.1⟩
  · rw [thread]
    exact fun unpublished => (early unpublished).2.2
  · rw [thread, pointer]
    exact invariant.published
  · rw [thread, pointer]
    exact invariant.leaving
  · rw [thread, alive]
    exact invariant.alive

/-- A step of `threadFunc` before the publication. -/
theorem PointInvariant.early {s t : EventLoopThread Functor} (invariant : s.PointInvariant)
    (before : s.thread.Unpublished) (started : s.thread ≠ .notStarted)
    (after : t.thread = .inCallback ∨ t.thread = .publishing) (alive : t.alive = true)
    (pointer : t.loop_ = s.loop_) (owner : t.owner = s.owner)
    (requested : t.requested = s.requested) : t.PointInvariant := by
  obtain ⟨null, unrequested, unseen⟩ := invariant.unpublished before
  have starting : s.owner.Starting := (invariant.starting before).resolve_left started
  have hasLoop : t.thread.HasLoop := after.elim .inl fun here => .inr (.inl here)
  refine ⟨fun begins => ?_, fun _ => ⟨pointer.trans null, requested.trans unrequested, ?_⟩,
    fun _ => .inr (owner.symm ▸ starting), fun published => ?_, fun leaving => ?_,
    iff_of_true alive hasLoop⟩
  · exact absurd (invariant.constructed (owner.symm.trans begins)) started
  · exact owner.symm ▸ unseen
  · rcases after with here | here <;> simp [ThreadFuncPoint.Published, here] at published
  · rcases after with here | here <;> simp [here] at leaving

/-- A step of `threadFunc` from the publication on. -/
theorem PointInvariant.late {s t : EventLoopThread Functor} (invariant : s.PointInvariant)
    (started : s.thread ≠ .notStarted) (after : ¬ t.thread.Unpublished)
    (published : t.thread.Published → t.loop_ = true)
    (leaving : t.thread = .leaving → t.loop_ = false)
    (alive : t.alive = true ↔ t.thread.HasLoop)
    (owner : t.owner = .constructed → s.owner = .constructed) : t.PointInvariant :=
  ⟨fun begins => absurd (invariant.constructed (owner begins)) started,
    fun unpublished => absurd unpublished after, fun unpublished => absurd unpublished after,
    published, leaving, alive⟩

/-- A step of `threadFunc` behind which there is no loop any more. -/
theorem PointInvariant.ends {s t : EventLoopThread Functor} (invariant : s.PointInvariant)
    (started : s.thread ≠ .notStarted) (after : t.thread = .caught ∨ t.thread = .finished)
    (dead : t.alive = false) (owner : t.owner = .constructed → s.owner = .constructed) :
    t.PointInvariant := by
  refine invariant.late started ?_ ?_ ?_ ?_ owner <;> rcases after with here | here <;>
    simp [here, dead, ThreadFuncPoint.Unpublished, ThreadFuncPoint.HasLoop,
      ThreadFuncPoint.Published]

/-- The step lemma: `loop_` is stored before anyone can see it and reset before the loop is
destroyed, but for the exceptions. -/
theorem PointInvariant.next {s : EventLoopThread Functor} (invariant : s.PointInvariant)
    {action : ThreadAction Functor} (guard : s.Enabled action) :
    (s.next action).PointInvariant := by
  cases action with
  | start =>
      have notStarted : s.thread = .notStarted := invariant.constructed guard
      obtain ⟨null, unrequested, _⟩ := invariant.unpublished (.inl notStarted)
      have dead : s.alive = false := by
        rw [← Bool.not_eq_true, invariant.alive]
        simp [notStarted, ThreadFuncPoint.HasLoop, ThreadFuncPoint.Published]
      refine ⟨by simp [EventLoopThread.next], fun _ => ⟨null, unrequested, ?_⟩,
        fun _ => .inr (.inl rfl), ?_, by simp [EventLoopThread.next], ?_⟩
      · simp [EventLoopThread.next, OwnerPoint.HasSeen]
      · simp [EventLoopThread.next, ThreadFuncPoint.Published]
      · simp [EventLoopThread.next, ThreadFuncPoint.HasLoop, ThreadFuncPoint.Published, dead]
  | lock =>
      exact invariant.owner rfl rfl rfl (by simp [EventLoopThread.next])
        fun _ unrequested _ _ => ⟨unrequested, by simp [EventLoopThread.next, OwnerPoint.HasSeen],
          .inr (.inr (.inl rfl))⟩
  | evaluate =>
      refine invariant.owner rfl rfl rfl ?_ fun null unrequested _ _ => ⟨unrequested, ?_⟩
      · rw [EventLoopThread.next]
        split <;> simp
      · simp [EventLoopThread.next, null, OwnerPoint.HasSeen, OwnerPoint.Starting]
  | spuriousWakeup =>
      exact invariant.owner rfl rfl rfl (by simp [EventLoopThread.next])
        fun _ unrequested _ _ => ⟨unrequested, by simp [EventLoopThread.next, OwnerPoint.HasSeen],
          .inr (.inl rfl)⟩
  | returnLoop =>
      have seen : s.owner.HasSeen := .inl guard
      exact invariant.owner rfl rfl rfl (by simp [EventLoopThread.next])
        fun _ _ unseen _ => absurd seen unseen
  | storeExiting =>
      refine invariant.owner rfl rfl rfl (by simp [EventLoopThread.next])
        fun _ unrequested unseen _ => ⟨unrequested, ?_, .inl ?_⟩
      · simp [EventLoopThread.next, OwnerPoint.HasSeen]
      · -- before the publication the destructor runs only if the thread was never started
        rcases guard.1 with constructed | null | started
        · exact invariant.constructed constructed
        · exact absurd (.inr (.inl ⟨_, null⟩)) unseen
        · exact absurd (.inr (.inl ⟨_, started⟩)) unseen
  | load =>
      have here : s.owner = .exiting := guard
      refine invariant.owner rfl rfl rfl ?_ fun null unrequested _ starting =>
        ⟨unrequested, ?_, .inl ?_⟩
      · rw [EventLoopThread.next]
        split <;> simp
      · simp [EventLoopThread.next, null, OwnerPoint.HasSeen]
      · exact starting.resolve_right (by simp [here, OwnerPoint.Starting])
  | callQuit =>
      have seen : s.owner.HasSeen := .inr (.inr (.inl guard))
      exact invariant.owner rfl rfl rfl (by simp [EventLoopThread.next])
        fun _ _ unseen _ => absurd seen unseen
  | callWakeup =>
      have seen : s.owner.HasSeen := .inr (.inr (.inr guard))
      exact invariant.owner rfl rfl rfl (by simp [EventLoopThread.next])
        fun _ _ unseen _ => absurd seen unseen
  | join =>
      refine invariant.owner rfl rfl rfl (by simp [EventLoopThread.next])
        fun _ unrequested _ starting => ⟨unrequested, ?_, .inl ?_⟩
      · simp [EventLoopThread.next, OwnerPoint.HasSeen]
      · exact starting.resolve_right (by simp [guard.1, OwnerPoint.Starting])
  | constructLoop =>
      have here : s.thread = .constructing := guard
      refine invariant.early (.inr (.inl here)) (by simp [here]) ?_ rfl rfl rfl rfl
      rw [EventLoopThread.next]
      split
      · exact .inl rfl
      · exact .inr rfl
  | callbackReturn =>
      have before : s.thread.Unpublished := .inr (.inr (.inl guard.1))
      exact invariant.early before (by simp [guard.1]) (.inr rfl)
        (invariant.alive.mpr (.inl guard.1)) rfl rfl rfl
  | publish =>
      refine invariant.late (by simp [guard.1]) ?_ (fun _ => rfl) (by simp [EventLoopThread.next])
        (iff_of_true (invariant.alive.mpr (.inr (.inl guard.1))) (.inr (.inr (.inl (.inl rfl)))))
        id
      simp [EventLoopThread.next, ThreadFuncPoint.Unpublished]
  | notify =>
      have here : s.thread.Published := .inl guard
      refine invariant.late (by simp [show s.thread = .notifying from guard]) ?_
        (fun _ => invariant.published here) (by simp [EventLoopThread.next])
        (iff_of_true (invariant.alive.mpr (.inr (.inr (.inl here))))
          (.inr (.inr (.inl (.inr (.inl rfl)))))) ?_
      · simp [EventLoopThread.next, ThreadFuncPoint.Unpublished]
      · rw [EventLoopThread.next]
        split <;> simp
  | enterLoop =>
      have here : s.thread.Published := .inr (.inl guard)
      refine invariant.late (by simp [show s.thread = .entering from guard]) ?_
        (fun _ => invariant.published here) (by simp [EventLoopThread.next])
        (iff_of_true (invariant.alive.mpr (.inr (.inr (.inl here))))
          (.inr (.inr (.inl (.inr (.inr (.inl rfl))))))) id
      simp [EventLoopThread.next, ThreadFuncPoint.Unpublished]
  | resetLoop =>
      have here : s.thread.Published := .inr (.inr (.inr guard))
      refine invariant.late (by simp [show s.thread = .returned from guard]) ?_ ?_ (fun _ => rfl)
        (iff_of_true (invariant.alive.mpr (.inr (.inr (.inl here)))) (.inr (.inr (.inr rfl)))) id
      · simp [EventLoopThread.next, ThreadFuncPoint.Unpublished]
      · simp [EventLoopThread.next, ThreadFuncPoint.Published]
  | destroyLoop =>
      exact invariant.ends (by simp [show s.thread = .leaving from guard]) (.inr rfl) rfl id
  | throw =>
      refine invariant.ends (fun notStarted => ?_) (.inl rfl) rfl id
      simp [Enabled, MayThrow, notStarted] at guard
  | catchReturn =>
      have here : s.thread = .caught := guard
      have dead : s.alive = false := by
        rw [← Bool.not_eq_true, invariant.alive]
        simp [here, ThreadFuncPoint.HasLoop, ThreadFuncPoint.Published]
      exact invariant.ends (by simp [here]) (.inr rfl) dead id
  | step action =>
      have hasLoop : s.thread.HasLoop := invariant.alive.mp guard.1
      have started : s.thread ≠ .notStarted := by
        intro notStarted
        simp [notStarted, ThreadFuncPoint.HasLoop, ThreadFuncPoint.Published] at hasLoop
      obtain ⟨same | ⟨looping, returned⟩, requested⟩ := stepLoop_points guard
      · refine invariant.owner same rfl rfl
          (fun constructed => started (invariant.constructed constructed))
          fun _ unrequested unseen starting => ⟨?_, unseen, starting⟩
        rcases requested with same | behind
        · exact same.trans unrequested
        · exact absurd (.inr (.inl ⟨_, behind⟩)) unseen
      · have here : s.thread.Published := .inr (.inr (.inl looping))
        change (s.stepLoop action).PointInvariant
        refine invariant.late started ?_ (fun _ => invariant.published here) ?_ ?_ id
        · simp [returned, ThreadFuncPoint.Unpublished]
        · simp [returned]
        · exact iff_of_true guard.1 (returned.symm ▸ .inr (.inr (.inl (.inr (.inr (.inr rfl))))))

theorem pointInvariant {s : EventLoopThread Functor}
    (reachable : (eventLoopThread Functor).Reachable s) : s.PointInvariant := by
  refine reachable.invariant (I := PointInvariant) ?_ fun s action _ invariant guard =>
    invariant.next guard
  rintro s ⟨callback, rfl⟩
  constructor <;>
    simp [construct, ThreadFuncPoint.Published, ThreadFuncPoint.HasLoop, OwnerPoint.HasSeen]

/-! ### The loop inside -/

structure LoopInvariant (s : EventLoopThread Functor) : Prop where
  outside : s.thread.BeforeLoop → s.loop.point = .outside
  unqueued : s.thread.BeforeLoop → s.thread ≠ .inCallback → s.loop.selfQueued = false
  /-- the destructor runs when the owner has no call of the loop under way -/
  free : s.owner = .exiting ∨ s.owner = .loaded → s.loop.threads ownerThread = .idle
  owes : s.owner = .quitting → s.alive = true → s.loop.threads ownerThread ≠ .idle

/-- A call from outside `loop()` leaves the loop outside. -/
theorem step_outside {s : EventLoopThread Functor} {action : LoopAction Functor}
    (guard : s.Enabled (.step action)) (before : s.thread ≠ .looping) :
    (s.loop.next action).point = s.loop.point ∧
      (s.thread ≠ .inCallback → (s.loop.next action).selfQueued = s.loop.selfQueued) := by
  cases action with
  | loop => exact guard.2.1.elim
  | selfPush functor => exact ⟨rfl, fun away => (guard.2.1.elim before away).elim⟩
  | selfWakeup => exact ⟨rfl, fun away => (guard.2.1.elim before away).elim⟩
  | selfQuit | push _ _ | setQuit _ | wakeup _ => exact ⟨rfl, fun _ => rfl⟩
  | testQuit | poll _ | handleEvent | handlerReturn | doPendingFunctors | swap | call
  | functorReturn | clearFlag | destroyFunctors => exact absurd guard.2.1 before

/-- Only the owner's own calls, made by the pointer that `startLoop` returned, change where the
owner is in a call. -/
theorem step_ownerThread {s : EventLoopThread Functor} {action : LoopAction Functor}
    (guard : s.Enabled (.step action)) (elsewhere : s.owner ≠ .started true) :
    (s.loop.next action).threads ownerThread = s.loop.threads ownerThread := by
  cases action with
  | push thread _ | setQuit thread | wakeup thread =>
      have other : thread ≠ ownerThread := guard.2.1.resolve_right elsewhere
      exact if_neg other.symm
  | testQuit =>
      rw [EventLoop.next]
      split <;> rfl
  | handleEvent =>
      rw [EventLoop.next]
      split <;> rfl
  | loop | poll _ | handlerReturn | doPendingFunctors | swap | call | functorReturn | clearFlag
  | destroyFunctors | selfPush _ | selfWakeup | selfQuit => rfl

/-- A step that leaves the loop alone, does not go back before `loop()` and does not begin or
revive a call of the destructor keeps the invariant. -/
theorem LoopInvariant.mono {s t : EventLoopThread Functor} (invariant : s.LoopInvariant)
    (loop : t.loop = s.loop)
    (thread : t.thread.BeforeLoop → s.thread.BeforeLoop ∧
      (t.thread ≠ .inCallback → s.thread ≠ .inCallback ∨ s.loop.selfQueued = false))
    (free : t.owner = .exiting ∨ t.owner = .loaded → s.loop.threads ownerThread = .idle)
    (owes : t.owner = .quitting → t.alive = true → s.owner = .quitting ∧ s.alive = true) :
    t.LoopInvariant := by
  constructor
  · exact fun before => loop.symm ▸ invariant.outside (thread before).1
  · intro before away
    rw [loop]
    exact ((thread before).2 away).elim (invariant.unqueued (thread before).1) id
  · exact fun destroying => loop.symm ▸ free destroying
  · intro quitting alive
    rw [loop]
    exact invariant.owes (owes quitting alive).1 (owes quitting alive).2

/-- From `loop()` on nothing is promised but what the owner's calls have done. -/
theorem LoopInvariant.inside {s t : EventLoopThread Functor} (invariant : s.LoopInvariant)
    (threads : t.loop.threads ownerThread = s.loop.threads ownerThread)
    (after : ¬ t.thread.BeforeLoop) (owner : t.owner = s.owner)
    (alive : t.alive = true → s.alive = true) : t.LoopInvariant := by
  refine ⟨fun before => absurd before after, fun before => absurd before after, ?_, ?_⟩
  · rw [threads, owner]
    exact invariant.free
  · rw [threads, owner]
    exact fun quitting living => invariant.owes quitting (alive living)

theorem LoopInvariant.step {s : EventLoopThread Functor} (invariant : s.LoopInvariant)
    {action : LoopAction Functor} (guard : s.Enabled (.step action)) :
    (s.stepLoop action).LoopInvariant := by
  have destroying (elsewhere : s.owner ≠ .started true) :=
    step_ownerThread guard elsewhere
  have free : s.owner = .exiting ∨ s.owner = .loaded →
      (s.loop.next action).threads ownerThread = .idle := by
    intro here
    rw [destroying (by rcases here with here | here <;> simp [here])]
    exact invariant.free here
  have owes : s.owner = .quitting → s.alive = true →
      (s.loop.next action).threads ownerThread ≠ .idle := by
    intro here alive
    rw [destroying (by simp [here])]
    exact invariant.owes here alive
  by_cases looping : s.thread = .looping
  · have after : ¬ (s.stepLoop action).thread.BeforeLoop := by
      rcases (stepLoop_points guard).1 with same | ⟨_, returned⟩
      · simp [same, looping, ThreadFuncPoint.BeforeLoop, ThreadFuncPoint.Unpublished]
      · simp [returned, ThreadFuncPoint.BeforeLoop, ThreadFuncPoint.Unpublished]
    exact ⟨fun before => absurd before after, fun before => absurd before after, free, owes⟩
  · obtain ⟨point, selfQueued⟩ := step_outside guard looping
    have same : (s.stepLoop action).thread = s.thread :=
      (stepLoop_points guard).1.resolve_right fun returned => looping returned.1
    refine ⟨?_, ?_, free, owes⟩
    · rw [same, stepLoop_loop, point]
      exact invariant.outside
    · rw [same, stepLoop_loop]
      exact fun before away => (selfQueued away).trans (invariant.unqueued before away)

theorem LoopInvariant.next {s : EventLoopThread Functor} (invariant : s.LoopInvariant)
    (points : s.PointInvariant) {action : ThreadAction Functor} (guard : s.Enabled action) :
    (s.next action).LoopInvariant := by
  cases action with
  | step action => exact invariant.step guard
  | start =>
      have before : s.thread.BeforeLoop := .inl (.inl (points.constructed guard))
      have away : s.thread ≠ .inCallback := by simp [points.constructed guard]
      exact invariant.mono rfl (fun _ => ⟨before, fun _ => .inl away⟩)
        (by simp [EventLoopThread.next]) (by simp [EventLoopThread.next])
  | storeExiting =>
      exact invariant.mono rfl (fun before => ⟨before, .inl⟩) (fun _ => guard.2)
        (by simp [EventLoopThread.next])
  | load =>
      refine invariant.mono rfl (fun before => ⟨before, .inl⟩)
        (fun _ => invariant.free (.inl guard)) ?_
      rw [EventLoopThread.next]
      split <;> simp
  | callQuit =>
      have same : (s.callLoop (.setQuit ownerThread)).point = s.loop.point ∧
          (s.callLoop (.setQuit ownerThread)).selfQueued = s.loop.selfQueued := by
        rw [callLoop]
        split <;> exact ⟨rfl, rfl⟩
      refine ⟨fun before => same.1.trans (invariant.outside before),
        fun before away => same.2.trans (invariant.unqueued before away),
        by simp [EventLoopThread.next], fun _ alive => ?_⟩
      have living : s.alive = true := alive
      simp [EventLoopThread.next, callLoop, living, EventLoop.next, EventLoop.setThread]
  | callWakeup =>
      have same : (s.callLoop (.wakeup ownerThread)).point = s.loop.point ∧
          (s.callLoop (.wakeup ownerThread)).selfQueued = s.loop.selfQueued := by
        rw [callLoop]
        split <;> exact ⟨rfl, rfl⟩
      exact ⟨fun before => same.1.trans (invariant.outside before),
        fun before away => same.2.trans (invariant.unqueued before away),
        by simp [EventLoopThread.next], by simp [EventLoopThread.next]⟩
  | evaluate =>
      refine invariant.mono rfl (fun before => ⟨before, .inl⟩) ?_ ?_ <;>
        (rw [EventLoopThread.next]; split <;> simp)
  | lock | spuriousWakeup | returnLoop | join =>
      exact invariant.mono rfl (fun before => ⟨before, .inl⟩) (by simp [EventLoopThread.next])
        (by simp [EventLoopThread.next])
  | constructLoop =>
      have here : s.thread = .constructing := guard
      have before : s.thread.Unpublished := .inr (.inl here)
      refine invariant.mono rfl (fun _ => ⟨.inl before, fun _ => .inl (by simp [here])⟩)
        invariant.free fun quitting _ => ?_
      exact absurd (.inr (.inr (.inr quitting))) (points.unpublished before).2.2
  | callbackReturn =>
      have before : s.thread.BeforeLoop := .inl (.inr (.inr (.inl guard.1)))
      exact invariant.mono rfl (fun _ => ⟨before, fun _ => .inr guard.2⟩) invariant.free .intro
  | publish =>
      have before : s.thread.BeforeLoop := .inl (.inr (.inr (.inr guard.1)))
      exact invariant.mono rfl (fun _ => ⟨before, fun _ => .inl (by simp [guard.1])⟩)
        invariant.free .intro
  | notify =>
      have here : s.thread = .notifying := guard
      have before : s.thread.BeforeLoop := .inr (.inl here)
      refine invariant.mono rfl (fun _ => ⟨before, fun _ => .inl (by simp [here])⟩) ?_ ?_
      · rw [EventLoopThread.next]
        split
        · simp
        · exact invariant.free
      · rw [EventLoopThread.next]
        split
        · simp
        · exact .intro
  | enterLoop | resetLoop =>
      exact invariant.inside rfl (by simp [EventLoopThread.next, ThreadFuncPoint.BeforeLoop,
        ThreadFuncPoint.Unpublished]) rfl id
  | destroyLoop | throw =>
      exact invariant.inside rfl (by simp [EventLoopThread.next, ThreadFuncPoint.BeforeLoop,
        ThreadFuncPoint.Unpublished]) rfl Bool.noConfusion
  | catchReturn =>
      exact invariant.inside rfl (by simp [EventLoopThread.next, ThreadFuncPoint.BeforeLoop,
        ThreadFuncPoint.Unpublished]) rfl id

theorem loopInvariant {s : EventLoopThread Functor}
    (reachable : (eventLoopThread Functor).Reachable s) : s.LoopInvariant := by
  refine reachable.invariant (I := LoopInvariant) ?_ fun s action before invariant guard =>
    invariant.next (pointInvariant before) guard
  rintro s ⟨callback, rfl⟩
  exact ⟨fun _ => rfl, fun _ _ => rfl, fun _ => rfl, by simp [construct]⟩

/-- A call through `loop_` is a step of the loop or none. -/
theorem callLoop_step {s : EventLoopThread Functor} {action : LoopAction Functor}
    (enabled : s.alive = true → s.loop.Enabled action) :
    s.callLoop action = s.loop ∨
      ∃ b, s.loop.Enabled b ∧ s.callLoop action = s.loop.next b := by
  rw [callLoop]
  split
  next alive => exact .inr ⟨action, enabled alive, rfl⟩
  next => exact .inl rfl

end EventLoopThread

/-- The loop of an `EventLoopThread` takes the steps of an event loop, so what holds of every run
of an event loop holds of it. -/
theorem loop_simulates (Functor : Type) :
    Machine.Simulation (eventLoopThread Functor) (eventLoop Functor) EventLoopThread.loop where
  initial := by
    rintro s ⟨callback, rfl⟩
    rfl
  step s action reachable guard := by
    have invariant := EventLoopThread.loopInvariant reachable
    cases action with
    | step action => exact .inr ⟨action, guard.2.2, rfl⟩
    | enterLoop =>
        have entering : s.thread = .entering := guard
        have before : s.thread.BeforeLoop := .inr (.inr entering)
        have away : s.thread ≠ .inCallback := by simp [entering]
        exact .inr ⟨.loop, ⟨invariant.outside before, invariant.unqueued before away⟩, rfl⟩
    | callQuit => exact EventLoopThread.callLoop_step fun _ => invariant.free (.inr guard)
    | callWakeup => exact EventLoopThread.callLoop_step fun alive => invariant.owes guard alive
    | start | lock | evaluate | spuriousWakeup | returnLoop | storeExiting | load | join
    | constructLoop | callbackReturn | publish | notify | resetLoop | destroyLoop | throw
    | catchReturn => exact .inl rfl

/-! ### The pointer -/

namespace EventLoopThread

variable {Functor : Type}

/-- `loop_` is null or points to a loop that is alive, and so does the pointer by which the
destructor calls `quit`, until this call returns. -/
def PointerValid (s : EventLoopThread Functor) : Prop :=
  (s.loop_ = true → s.alive = true) ∧
    (s.Enabled .callQuit ∨ s.Enabled .callWakeup → s.alive = true)

/-- No exception leaves `loop()`, and the loop is not destroyed while the destructor of the owner
is between its load of `loop_` and the end of its call of `quit`. -/
def KeepsPointer (s : EventLoopThread Functor) : ThreadAction Functor → Prop
  | .throw => s.thread ≠ .looping
  | .destroyLoop => s.owner ≠ .loaded ∧ s.owner ≠ .quitting
  | _ => True

instance (s : EventLoopThread Functor) : ∀ action, Decidable (s.KeepsPointer action)
  | .throw => inferInstanceAs (Decidable (¬ s.thread = .looping))
  | .destroyLoop => inferInstanceAs (Decidable (_ ≠ _ ∧ _ ≠ _))
  | .start | .lock | .evaluate | .spuriousWakeup | .returnLoop | .storeExiting | .load
  | .callQuit | .callWakeup | .join | .constructLoop | .callbackReturn | .publish | .notify
  | .enterLoop | .resetLoop | .catchReturn | .step _ => inferInstanceAs (Decidable True)

/-- A step that keeps the loop alive and neither stores `loop_` nor loads it keeps the pointer
valid. -/
theorem PointerValid.mono {s t : EventLoopThread Functor} (valid : s.PointerValid)
    (pointer : t.loop_ = true → s.loop_ = true)
    (owner : t.owner = .loaded ∨ t.owner = .quitting → s.owner = .loaded ∨ s.owner = .quitting)
    (alive : s.alive = true → t.alive = true) : t.PointerValid :=
  ⟨fun stored => alive (valid.1 (pointer stored)), fun calls => alive (valid.2 (owner calls))⟩

/-- A step keeps the pointer valid exactly when it meets the condition. -/
theorem pointerValid_next_iff {s : EventLoopThread Functor}
    (reachable : (eventLoopThread Functor).Reachable s) (valid : s.PointerValid)
    {action : ThreadAction Functor} (guard : s.Enabled action) :
    (s.next action).PointerValid ↔ s.KeepsPointer action := by
  have points := pointInvariant reachable
  cases action with
  | throw =>
      constructor
      · intro after looping
        have stored : s.loop_ = true := points.published (.inr (.inr (.inl looping)))
        exact absurd (after.1 stored) (by simp [EventLoopThread.next])
      · intro inside
        -- before the publication nobody has the pointer
        have early : s.thread.Unpublished := by
          rcases guard with constructing | ⟨inCallback, _⟩ | ⟨looping, _⟩
          · exact .inr (.inl constructing)
          · exact .inr (.inr (.inl inCallback))
          · exact absurd looping inside
        obtain ⟨null, _, unseen⟩ := points.unpublished early
        exact ⟨fun stored => absurd (null.symm.trans stored) (by decide),
          fun calls => absurd (.inr (.inr calls)) unseen⟩
  | destroyLoop =>
      have null : s.loop_ = false := points.leaving guard
      constructor
      · intro after
        exact ⟨fun loaded => Bool.noConfusion (after.2 (.inl loaded)),
          fun quitting => Bool.noConfusion (after.2 (.inr quitting))⟩
      · rintro ⟨unloaded, unquitting⟩
        exact ⟨fun stored => absurd (null.symm.trans stored) (by decide),
          fun calls => absurd calls (not_or.mpr ⟨unloaded, unquitting⟩)⟩
  | publish =>
      have alive : s.alive = true := points.alive.mpr (.inr (.inl guard.1))
      exact iff_of_true ⟨fun _ => alive, fun _ => alive⟩ trivial
  | load =>
      refine iff_of_true ⟨valid.1, fun calls => valid.1 ?_⟩ trivial
      change (if s.loop_ then OwnerPoint.loaded else .joining) = .loaded ∨
        (if s.loop_ then OwnerPoint.loaded else .joining) = .quitting at calls
      split at calls
      · assumption
      · rcases calls with loaded | quitting
        · cases loaded
        · cases quitting
  -- between the two halves of `quit` the pointer is the one that was loaded
  | callQuit => exact iff_of_true ⟨valid.1, fun _ => valid.2 (.inl guard)⟩ trivial
  | evaluate =>
      refine iff_of_true (valid.mono id (fun calls => ?_) id) trivial
      change (if s.loop_ then OwnerPoint.returning else .waiting) = .loaded ∨
        (if s.loop_ then OwnerPoint.returning else .waiting) = .quitting at calls
      split at calls <;> simp at calls
  | notify =>
      refine iff_of_true (valid.mono id (fun calls => ?_) id) trivial
      change (if s.owner = .waiting then OwnerPoint.locking else s.owner) = .loaded ∨
        (if s.owner = .waiting then OwnerPoint.locking else s.owner) = .quitting at calls
      split at calls
      · simp at calls
      · exact calls
  | constructLoop => exact iff_of_true (valid.mono id id fun _ => rfl) trivial
  | resetLoop => exact iff_of_true (valid.mono (fun stored => by cases stored) id id) trivial
  | start | lock | spuriousWakeup | returnLoop | storeExiting | callWakeup | join =>
      exact iff_of_true (valid.mono id (by simp [EventLoopThread.next]) id) trivial
  | callbackReturn | enterLoop | catchReturn | step _ =>
      exact iff_of_true (valid.mono id id id) trivial

end EventLoopThread

/-- In a run the pointers are valid at all times exactly when no exception leaves `loop()` and the
loop is never destroyed between the load of the destructor and the end of its `quit`. -/
theorem pointer_valid_iff {Functor : Type} {start : EventLoopThread Functor}
    (initial : (eventLoopThread Functor).initial start) {schedule : List (ThreadAction Functor)}
    (admitted : (eventLoopThread Functor).Admits start schedule) :
    (∀ front rest, schedule = front ++ rest →
        ((eventLoopThread Functor).exec start front).PointerValid) ↔
      ∀ front action rest, schedule = front ++ action :: rest →
        ((eventLoopThread Functor).exec start front).KeepsPointer action := by
  have begins : start.PointerValid := by
    obtain ⟨callback, rfl⟩ := initial
    refine ⟨fun stored => Bool.noConfusion stored, ?_⟩
    rintro (loaded | quitting)
    · cases loaded
    · cases quitting
  exact Machine.throughout_iff_of_reachable initial
    (fun s action reachable valid guard =>
      EventLoopThread.pointerValid_next_iff reachable valid guard) begins admitted

/-- The owner starts the thread, gets the pointer and makes the loop quit in its destructor. -/
def demoThreadRun : List (ThreadAction Nat) :=
  [.start, .constructLoop, .callbackReturn, .publish, .notify, .lock, .evaluate, .returnLoop,
    .enterLoop, .step .testQuit, .step (.poll [.channel 5]), .storeExiting, .load, .callQuit,
    .step .handleEvent, .callWakeup, .step .handlerReturn, .step .doPendingFunctors,
    .step .swap, .step .clearFlag, .step .destroyFunctors, .step .testQuit, .resetLoop,
    .destroyLoop, .join]

theorem pointer_valid_iff_demo :
    ((eventLoopThread Nat).exec (.construct true) demoThreadRun).PointerValid := by
  have admitted : ((eventLoopThread Nat).restrict EventLoopThread.KeepsPointer).Admits
      (.construct true) demoThreadRun := by decide +kernel
  obtain ⟨plain, keeps⟩ := Machine.admits_restrict_iff.mp admitted
  exact (pointer_valid_iff ⟨true, rfl⟩ plain).mpr keeps _ [] (List.append_nil _).symm

/-- The destructor makes the loop quit, and the loop is destroyed before that call of `quit` gets to
its `wakeup`. -/
def demoLateWakeup : List (ThreadAction Nat) :=
  [.start, .constructLoop, .publish, .notify, .lock, .evaluate, .returnLoop, .enterLoop,
    .storeExiting, .load, .callQuit, .step .testQuit, .resetLoop, .destroyLoop]

example : (eventLoopThread Nat).Admits (.construct false) demoLateWakeup ∧
    ¬ ((eventLoopThread Nat).exec (.construct false) demoLateWakeup).PointerValid := by
  refine ⟨by decide +kernel, fun valid => ?_⟩
  exact absurd (valid.2 (.inr (by decide +kernel))) (by decide +kernel)

/-- A handler throws: the loop is destroyed on the way to the `catch`, and `loop_` still points to
it. -/
theorem handler_throw_dangles :
    ¬ ∀ s : EventLoopThread Nat, (eventLoopThread Nat).Reachable s → s.PointerValid := by
  intro claim
  have admitted : (eventLoopThread Nat).Admits (.construct false)
      [.start, .constructLoop, .publish, .notify, .enterLoop, .step .testQuit,
        .step (.poll [.channel 5]), .step .handleEvent, .throw] := by decide +kernel
  exact absurd ((claim _ (admitted.reachable ⟨false, rfl⟩)).1 rfl) (by decide)

end EduMuduo

/-
Module: EduMuduo.Core.EventLoopThread
Layer: Core
Purpose: An event loop that is a local variable of `threadFunc`, and the owner of the
  `EventLoopThread` that calls `startLoop` and then the destructor.  Each point of the two threads
  lies between two accesses to what they share: `loop_`, `exiting_`, `mutex_` with `cond_`, and the
  loop itself.  Between these accesses the loop takes its own steps, and other threads that hold a
  pointer to it (the init callback may have handed one out) call it.
Imports: EduMuduo.Core.EventLoop
Trusted boundary: human-reviewed model
Main exports: EventLoopThread, ThreadFuncPoint, OwnerPoint, ThreadAction, eventLoopThread
-/
import EduMuduo.Core.EventLoop

namespace EduMuduo

open Library

/-- Where `threadFunc` is. -/
inductive ThreadFuncPoint where
  | notStarted
  /-- in the constructor of the local `loop` -/
  | constructing
  | inCallback
  /-- before the critical section that stores `loop_` -/
  | publishing
  /-- before `notify_one` -/
  | notifying
  /-- before the first statement of `loop()` -/
  | entering
  | looping
  /-- `loop()` has returned, `loop_` is not yet reset -/
  | returned
  /-- `loop_` is reset, the local `loop` is about to be destroyed -/
  | leaving
  /-- in a handler of the `try` block: the local `loop` is destroyed -/
  | caught
  | finished
deriving Repr, DecidableEq

/-- Where the owner is. -/
inductive OwnerPoint where
  | constructed
  /-- in `startLoop`, before it has locked `mutex_`: at its start or behind a wakeup -/
  | locking
  /-- holds `mutex_` and is about to evaluate the predicate of `wait` -/
  | looking
  /-- sleeps in `cond_.wait` without `mutex_` -/
  | waiting
  /-- holds `mutex_` behind `wait` -/
  | returning
  /-- `startLoop` has returned a pointer that is null or not -/
  | started (result : Bool)
  /-- in the destructor, `exiting_` stored -/
  | exiting
  /-- has loaded a pointer that is not null and is about to call `quit` -/
  | loaded
  /-- in that `quit`, before its `wakeup` -/
  | quitting
  /-- before `thread_.join()` -/
  | joining
  | destroyed
deriving Repr, DecidableEq

structure EventLoopThread (Functor : Type) where
  /-- whether `callback_` is set -/
  callback : Bool
  exiting : Bool
  /-- whether `loop_` is not null -/
  loop_ : Bool
  /-- the local variable of `threadFunc`, and whether it is constructed and not destroyed -/
  loop : EventLoop Functor
  alive : Bool
  thread : ThreadFuncPoint
  owner : OwnerPoint
  /-- the owner has called `quit` on the loop and `quit_` was stored -/
  requested : Bool

inductive ThreadAction (Functor : Type) where
  /-- `startLoop`: `thread_.start()`, then the parts of the `wait` -/
  | start
  | lock
  | evaluate
  | spuriousWakeup
  | returnLoop
  /-- the destructor -/
  | storeExiting
  | load
  | callQuit
  | callWakeup
  | join
  /-- `threadFunc` -/
  | constructLoop
  | callbackReturn
  | publish
  | notify
  | enterLoop
  | resetLoop
  | destroyLoop
  | throw
  | catchReturn
  /-- a step of the loop: of its thread, or a call of another thread -/
  | step (action : LoopAction Functor)
deriving Repr, DecidableEq

/-- The owner among the threads that call the loop. -/
def ownerThread : ThreadId := 0

namespace EventLoopThread

variable {Functor : Type}

/-- The constructor. -/
def construct (callback : Bool) : EventLoopThread Functor where
  callback := callback
  exiting := false
  loop_ := false
  loop := .construct
  alive := false
  thread := .notStarted
  owner := .constructed
  requested := false

/-- Whether the owner holds `mutex_`.  `threadFunc` holds it within one action only. -/
def OwnerLocks (s : EventLoopThread Functor) : Prop :=
  s.owner = .looking ∨ s.owner = .returning

instance (s : EventLoopThread Functor) : Decidable s.OwnerLocks :=
  inferInstanceAs (Decidable (_ ∨ _))

/-- A call of the loop by another thread.  The owner calls it by the pointer that `startLoop`
returned. -/
def MayCall (s : EventLoopThread Functor) (thread : ThreadId) : Prop :=
  thread ≠ ownerThread ∨ s.owner = .started true

instance (s : EventLoopThread Functor) (thread : ThreadId) : Decidable (s.MayCall thread) :=
  inferInstanceAs (Decidable (_ ∨ _))

/-- Who takes a step of the loop: the thread is inside `loop()`, or the init callback or a functor
calls its own loop, or another thread does. -/
def MayStep (s : EventLoopThread Functor) : LoopAction Functor → Prop
  | .loop => False
  | .selfPush _ | .selfWakeup | .selfQuit => s.thread = .looping ∨ s.thread = .inCallback
  | .push thread _ | .setQuit thread | .wakeup thread => s.MayCall thread
  | .testQuit | .poll _ | .handleEvent | .handlerReturn | .doPendingFunctors | .swap | .call
  | .functorReturn | .clearFlag | .destroyFunctors => s.thread = .looping

instance (s : EventLoopThread Functor) : ∀ action, Decidable (s.MayStep action)
  | .loop => inferInstanceAs (Decidable False)
  | .selfPush _ | .selfWakeup | .selfQuit => inferInstanceAs (Decidable (_ ∨ _))
  | .push thread _ | .setQuit thread | .wakeup thread =>
      inferInstanceAs (Decidable (s.MayCall thread))
  | .testQuit | .poll _ | .handleEvent | .handlerReturn | .doPendingFunctors | .swap | .call
  | .functorReturn | .clearFlag | .destroyFunctors =>
      inferInstanceAs (Decidable (s.thread = .looping))

/-- Where an exception can leave the `try` block: the constructor of the loop, the init callback,
and the handlers and functors that `loop()` calls. -/
def MayThrow (s : EventLoopThread Functor) : Prop :=
  s.thread = .constructing ∨ (s.thread = .inCallback ∧ s.loop.selfQueued = false) ∨
    s.thread = .looping ∧ (s.loop.point = .inHandler ∨ s.loop.point = .inFunctor) ∧
      s.loop.selfQueued = false

instance (s : EventLoopThread Functor) : Decidable s.MayThrow :=
  inferInstanceAs (Decidable (_ ∨ (_ ∧ _) ∨ _ ∧ (_ ∨ _) ∧ _))

/-- Other threads call the loop only while it is alive, but for the destructor of the owner, which
calls `quit` by the pointer that it has loaded, whatever that points to. -/
def Enabled (s : EventLoopThread Functor) : ThreadAction Functor → Prop
  | .start => s.owner = .constructed
  | .lock => s.owner = .locking
  | .evaluate => s.owner = .looking
  | .spuriousWakeup => s.owner = .waiting
  | .returnLoop => s.owner = .returning
  | .storeExiting =>
      (s.owner = .constructed ∨ s.owner = .started false ∨ s.owner = .started true) ∧
        s.loop.threads ownerThread = .idle
  | .load => s.owner = .exiting
  | .callQuit => s.owner = .loaded
  | .callWakeup => s.owner = .quitting
  -- a thread that was never started is not joinable
  | .join => s.owner = .joining ∧ (s.thread = .finished ∨ s.thread = .notStarted)
  | .constructLoop => s.thread = .constructing
  | .callbackReturn => s.thread = .inCallback ∧ s.loop.selfQueued = false
  | .publish => s.thread = .publishing ∧ ¬ s.OwnerLocks
  | .notify => s.thread = .notifying
  | .enterLoop => s.thread = .entering
  | .resetLoop => s.thread = .returned
  | .destroyLoop => s.thread = .leaving
  | .throw => s.MayThrow
  | .catchReturn => s.thread = .caught
  | .step action => s.alive = true ∧ s.MayStep action ∧ s.loop.Enabled action

instance (s : EventLoopThread Functor) : ∀ action, Decidable (s.Enabled action)
  | .start | .lock | .evaluate | .spuriousWakeup | .returnLoop | .load | .callQuit
  | .callWakeup => inferInstanceAs (Decidable (s.owner = _))
  | .constructLoop | .notify | .enterLoop | .resetLoop | .destroyLoop | .catchReturn =>
      inferInstanceAs (Decidable (s.thread = _))
  | .storeExiting => inferInstanceAs (Decidable ((_ ∨ _ ∨ _) ∧ _))
  | .join => inferInstanceAs (Decidable (_ ∧ (_ ∨ _)))
  | .callbackReturn => inferInstanceAs (Decidable (_ ∧ _))
  | .publish => inferInstanceAs (Decidable (_ ∧ ¬ s.OwnerLocks))
  | .throw => inferInstanceAs (Decidable s.MayThrow)
  | .step action => inferInstanceAs (Decidable (_ ∧ s.MayStep action ∧ s.loop.Enabled action))

/-- A step of the loop.  The owner's `quit` is a request; leaving the `while` returns. -/
def stepLoop (s : EventLoopThread Functor) (action : LoopAction Functor) :
    EventLoopThread Functor :=
  { s with
    loop := s.loop.next action
    thread :=
      match action with
      | .testQuit => if s.loop.quit then .returned else s.thread
      | _ => s.thread
    requested :=
      match action with
      | .setQuit thread => s.requested || thread == ownerThread
      | _ => s.requested }

@[simp] theorem stepLoop_loop (s : EventLoopThread Functor) (action : LoopAction Functor) :
    (s.stepLoop action).loop = s.loop.next action := rfl

@[simp] theorem stepLoop_loop_ (s : EventLoopThread Functor) (action : LoopAction Functor) :
    (s.stepLoop action).loop_ = s.loop_ := rfl

@[simp] theorem stepLoop_alive (s : EventLoopThread Functor) (action : LoopAction Functor) :
    (s.stepLoop action).alive = s.alive := rfl

@[simp] theorem stepLoop_owner (s : EventLoopThread Functor) (action : LoopAction Functor) :
    (s.stepLoop action).owner = s.owner := rfl

/-- What a call through `loop_` does to the loop; on a destroyed one it is undefined, and the model
leaves the loop as it was. -/
def callLoop (s : EventLoopThread Functor) (action : LoopAction Functor) : EventLoop Functor :=
  if s.alive then s.loop.next action else s.loop

def next (s : EventLoopThread Functor) : ThreadAction Functor → EventLoopThread Functor
  | .start => { s with owner := .locking, thread := .constructing }
  | .lock => { s with owner := .looking }
  | .evaluate => { s with owner := if s.loop_ then .returning else .waiting }
  | .spuriousWakeup => { s with owner := .locking }
  | .returnLoop => { s with owner := .started s.loop_ }
  | .storeExiting => { s with exiting := true, owner := .exiting }
  | .load => { s with owner := if s.loop_ then .loaded else .joining }
  | .callQuit =>
      { s with
        loop := s.callLoop (.setQuit ownerThread), requested := true, owner := .quitting }
  | .callWakeup => { s with loop := s.callLoop (.wakeup ownerThread), owner := .joining }
  | .join => { s with owner := .destroyed }
  | .constructLoop =>
      { s with alive := true, thread := if s.callback then .inCallback else .publishing }
  | .callbackReturn => { s with thread := .publishing }
  | .publish => { s with loop_ := true, thread := .notifying }
  | .notify =>
      { s with
        owner := if s.owner = .waiting then .locking else s.owner, thread := .entering }
  | .enterLoop => { s with loop := s.loop.next .loop, thread := .looping }
  | .resetLoop => { s with loop_ := false, thread := .leaving }
  | .destroyLoop => { s with alive := false, thread := .finished }
  -- the handlers do not reset `loop_`
  | .throw => { s with alive := false, thread := .caught }
  | .catchReturn => { s with exiting := true, thread := .finished }
  | .step action => s.stepLoop action

end EventLoopThread

/-- All interleavings of `threadFunc`, the owner and the other threads. -/
def eventLoopThread (Functor : Type) :
    Machine (EventLoopThread Functor) (ThreadAction Functor) where
  initial s := ∃ callback, s = .construct callback
  enabled := EventLoopThread.Enabled
  next := EventLoopThread.next

instance {Functor : Type} (s : EventLoopThread Functor) (action : ThreadAction Functor) :
    Decidable ((eventLoopThread Functor).enabled s action) :=
  inferInstanceAs (Decidable (s.Enabled action))

end EduMuduo

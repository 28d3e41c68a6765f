/-
Module: EduMuduo.Core.EventLoop
Layer: Core
Purpose: One event loop with its thread and any number of other threads.  The loop thread is at one
  of the points of `loop` and `doPendingFunctors`; what is atomic in the source (a push or the swap
  under `mutex_`, an access to an atomic flag, a read or write of the event descriptor) is one
  action, and everything else may come between.  The event descriptor is a counter.  Functors are
  opaque, so the model is generic in them.
Imports: EduMuduo.Library.BatchQueue
Trusted boundary: human-reviewed model
Main exports: EventLoop, LoopPoint, LoopAction, eventLoop
-/
import EduMuduo.Library.BatchQueue

namespace EduMuduo

open Library

/-- A thread other than the loop's own. -/
abbrev ThreadId := Nat

/-- Where the loop thread is. -/
inductive LoopPoint where
  /-- before `loop()` or after it has returned -/
  | outside
  /-- at the condition of the `while` -/
  | test
  | polling
  /-- between two handlers of `activeChannels_` -/
  | handling
  | inHandler
  /-- in `doPendingFunctors`, the flag set, before the swap -/
  | swapping
  /-- between two functors of the batch -/
  | draining
  | inFunctor
  /-- the flag cleared, the local vector `functors` being destroyed -/
  | releasing
deriving Repr, DecidableEq

/-- Where another thread is; `queued` and `quitting` are before the `wakeup()`. -/
inductive ThreadPoint where
  | idle
  | queued
  | quitting
deriving Repr, DecidableEq

/-- An element of `activeChannels_`. -/
inductive ActiveChannel where
  | wakeupChannel
  | channel (fd : Nat)
deriving Repr, DecidableEq

structure EventLoop (Functor : Type) where
  looping : Bool
  quit : Bool
  callingPendingFunctors : Bool
  pendingFunctors : List Functor
  /-- the counter behind `wakeupFd_` -/
  wakeupFd : Nat
  activeChannels : List ActiveChannel
  point : LoopPoint
  /-- the local vector of `doPendingFunctors` and how many of its functors have been called -/
  functors : List Functor
  called : Nat
  /-- the loop thread has pushed in `queueInLoop` and has not come to the test that follows -/
  selfQueued : Bool
  threads : ThreadId → ThreadPoint
  /-- number of swaps so far -/
  batches : Nat
  /-- every push and every call so far, each with the number of swaps before it -/
  pushed : List (Nat × Functor)
  executed : List (Nat × Functor)

inductive LoopAction (Functor : Type) where
  | loop
  | testQuit
  | poll (active : List ActiveChannel)
  | handleEvent
  | handlerReturn
  | doPendingFunctors
  | swap
  | call
  | functorReturn
  | clearFlag
  | destroyFunctors
  /-- `queueInLoop` by the loop thread: the push, then the test with its `wakeup()` -/
  | selfPush (functor : Functor)
  | selfWakeup
  | selfQuit
  /-- `queueInLoop` and `quit` by another thread: the push or store, then the `wakeup()` -/
  | push (thread : ThreadId) (functor : Functor)
  | setQuit (thread : ThreadId)
  | wakeup (thread : ThreadId)
deriving Repr, DecidableEq

namespace LoopPoint

/-- The points at which the loop thread runs code of the user. -/
def RunsUserCode (point : LoopPoint) : Prop :=
  point = .outside ∨ point = .inHandler ∨ point = .inFunctor ∨ point = .releasing

instance (point : LoopPoint) : Decidable point.RunsUserCode :=
  inferInstanceAs (Decidable (_ ∨ _ ∨ _ ∨ _))

end LoopPoint

namespace EventLoop

variable {Functor : Type}

/-- The constructor. -/
def construct : EventLoop Functor where
  looping := false
  quit := false
  callingPendingFunctors := false
  pendingFunctors := []
  wakeupFd := 0
  activeChannels := []
  point := .outside
  functors := []
  called := 0
  selfQueued := false
  threads := fun _ => .idle
  batches := 0
  pushed := []
  executed := []

/-- `poll` reports the wakeup channel only when the counter is positive. -/
def Enabled (s : EventLoop Functor) : LoopAction Functor → Prop
  | .loop => s.point = .outside ∧ s.selfQueued = false
  | .testQuit => s.point = .test
  | .poll active => s.point = .polling ∧ (.wakeupChannel ∈ active → 0 < s.wakeupFd)
  | .handleEvent => s.point = .handling ∧ s.activeChannels ≠ []
  | .handlerReturn => s.point = .inHandler ∧ s.selfQueued = false
  | .doPendingFunctors => s.point = .handling ∧ s.activeChannels = []
  | .swap => s.point = .swapping
  | .call => s.point = .draining ∧ s.called < s.functors.length
  | .functorReturn => s.point = .inFunctor ∧ s.selfQueued = false
  | .clearFlag => s.point = .draining ∧ s.functors.length ≤ s.called
  | .destroyFunctors => s.point = .releasing ∧ s.selfQueued = false
  | .selfPush _ => s.point.RunsUserCode ∧ s.selfQueued = false
  | .selfWakeup => s.selfQueued = true
  | .selfQuit => s.point.RunsUserCode ∧ s.selfQueued = false
  | .push thread _ => s.threads thread = .idle
  | .setQuit thread => s.threads thread = .idle
  | .wakeup thread => s.threads thread ≠ .idle

instance (s : EventLoop Functor) : ∀ action, Decidable (s.Enabled action)
  | .loop | .handlerReturn | .functorReturn | .destroyFunctors | .handleEvent
  | .doPendingFunctors | .call | .clearFlag | .selfPush _ | .selfQuit =>
      inferInstanceAs (Decidable (_ ∧ _))
  | .poll active => inferInstanceAs (Decidable (_ ∧ (ActiveChannel.wakeupChannel ∈ active → _)))
  | .testQuit | .swap => inferInstanceAs (Decidable (s.point = _))
  | .selfWakeup => inferInstanceAs (Decidable (s.selfQueued = true))
  | .push thread _ | .setQuit thread => inferInstanceAs (Decidable (s.threads thread = _))
  | .wakeup thread => inferInstanceAs (Decidable (¬ s.threads thread = _))

/-- The critical section of `queueInLoop`. -/
def pushFunctor (s : EventLoop Functor) (functor : Functor) : EventLoop Functor :=
  { s with
    pendingFunctors := s.pendingFunctors ++ [functor]
    pushed := s.pushed ++ [(s.batches, functor)] }

def setThread (s : EventLoop Functor) (thread : ThreadId) (point : ThreadPoint) :
    EventLoop Functor :=
  { s with threads := fun other => if other = thread then point else s.threads other }

def next (s : EventLoop Functor) : LoopAction Functor → EventLoop Functor
  | .loop => { s with looping := true, quit := false, point := .test }
  | .testQuit =>
      if s.quit then { s with looping := false, point := .outside }
      else { s with activeChannels := [], point := .polling }
  | .poll active => { s with activeChannels := active, point := .handling }
  | .handleEvent =>
      match s.activeChannels with
      | [] => s
      -- `handleRead` of the loop empties the counter
      | .wakeupChannel :: rest => { s with activeChannels := rest, wakeupFd := 0 }
      | .channel _ :: rest => { s with activeChannels := rest, point := .inHandler }
  | .handlerReturn => { s with point := .handling }
  | .doPendingFunctors =>
      { s with callingPendingFunctors := true, functors := [], called := 0, point := .swapping }
  | .swap =>
      { s with
        functors := s.pendingFunctors
        pendingFunctors := s.functors
        batches := s.batches + 1
        point := .draining }
  | .call =>
      { s with
        called := s.called + 1
        executed := s.executed ++
          ((s.functors.drop s.called).take 1).map fun functor => (s.batches, functor)
        point := .inFunctor }
  | .functorReturn => { s with point := .draining }
  | .clearFlag => { s with callingPendingFunctors := false, point := .releasing }
  | .destroyFunctors => { s with functors := [], called := 0, point := .test }
  | .selfPush functor => { s.pushFunctor functor with selfQueued := true }
  | .selfWakeup =>
      { s with
        selfQueued := false
        wakeupFd := if s.callingPendingFunctors then s.wakeupFd + 1 else s.wakeupFd }
  | .selfQuit => { s with quit := true }
  | .push thread functor => (s.pushFunctor functor).setThread thread .queued
  | .setQuit thread => { s with quit := true }.setThread thread .quitting
  | .wakeup thread => { s with wakeupFd := s.wakeupFd + 1 }.setThread thread .idle

end EventLoop

/-- All interleavings of the loop thread with the other threads. -/
def eventLoop (Functor : Type) : Machine (EventLoop Functor) (LoopAction Functor) where
  initial s := s = .construct
  enabled := EventLoop.Enabled
  next := EventLoop.next

instance {Functor : Type} (s : EventLoop Functor) (action : LoopAction Functor) :
    Decidable ((eventLoop Functor).enabled s action) :=
  inferInstanceAs (Decidable (s.Enabled action))

end EduMuduo

/-
Module: EduMuduo.Core.ServerStart
Layer: Core
Purpose: `TcpServer::start` and `EventLoopThreadPool::start`, called by any number of threads while
  the threads of the pool that it starts, and the base loop, are running.  Each point of a caller
  lies between two accesses to what the threads share: `started_` of the server, the threads of the
  pool with `loops_`, and the queue of the base loop.
Imports: EduMuduo.Core.EventLoopThread, Mathlib.Logic.Function.Basic
Trusted boundary: human-reviewed model
Main exports: StartPoint, ServerStart, StartAction, serverStart
-/
import EduMuduo.Core.EventLoopThread
import Mathlib.Logic.Function.Basic

namespace EduMuduo

open Library

/-- Where a thread is that calls `TcpServer::start`. -/
inductive StartPoint where
  | outside
  /-- before `started_.exchange(true)` -/
  | exchanging
  /-- in the pool's `start`, before `started_.store` -/
  | storing
  /-- at the head of the loop over the threads -/
  | starting
  /-- in `startLoop` of the thread that has been emplaced -/
  | inStartLoop
  /-- in `cb(baseLoop_)` -/
  | inCallback
  /-- the pool has started, before `runInLoop` -/
  | handing
  /-- in `queueInLoop`, before the `wakeup` -/
  | waking
deriving Repr, DecidableEq

/-- The thread of the base loop among the callers. -/
def baseThread : ThreadId := 0

/-- A server from its construction on; `setThreadNum` and `setThreadInitCallback` come first. -/
structure ServerStart (Functor : Type) where
  numThreads : Nat
  /-- whether `threadInitCallback_` is set -/
  threadInitCallback : Bool
  /-- `started_` of the server, and of the pool -/
  started : Bool
  poolStarted : Bool
  threads : List (EventLoopThread Functor)
  /-- `loops_`, whether each pointer is not null -/
  loops : List Bool
  callers : ThreadId → StartPoint
  /-- the functors in the queue of the base loop that call `acceptor_->listen()`, and how often it
  has been called -/
  pending : Nat
  listened : Nat

inductive StartAction (Functor : Type) where
  | call (t : ThreadId)
  | exchange (t : ThreadId)
  | store (t : ThreadId)
  | emplace (t : ThreadId)
  | pushBack (t : ThreadId)
  | endLoop (t : ThreadId)
  | callbackReturn (t : ThreadId)
  | runInLoop (t : ThreadId)
  | wakeup (t : ThreadId)
  /-- a step of thread `i` of the pool, or of `startLoop` on it -/
  | thread (i : Nat) (action : ThreadAction Functor)
  /-- the base loop runs the functor -/
  | listen
deriving Repr, DecidableEq

namespace ServerStart

variable {Functor : Type}

def construct (numThreads : Nat) (threadInitCallback : Bool) : ServerStart Functor where
  numThreads := numThreads
  threadInitCallback := threadInitCallback
  started := false
  poolStarted := false
  threads := []
  loops := []
  callers := fun _ => .outside
  pending := 0
  listened := 0

/-- The destructor of a thread of the pool is not called while there is the server. -/
def OfDestructor : ThreadAction Functor → Bool
  | .storeExiting | .load | .callQuit | .callWakeup | .join => true
  | _ => false

/-- What `startLoop` of the thread emplaced last has returned. -/
def result (s : ServerStart Functor) : Option Bool :=
  match s.threads.getLast? with
  | some thread =>
      match thread.owner with
      | .started result => some result
      | _ => none
  | none => none

def Enabled (s : ServerStart Functor) : StartAction Functor → Prop
  | .call t => s.callers t = .outside
  | .exchange t => s.callers t = .exchanging
  | .store t => s.callers t = .storing
  | .emplace t => s.callers t = .starting ∧ s.threads.length < s.numThreads
  | .pushBack t => s.callers t = .inStartLoop ∧ s.result.isSome = true
  | .endLoop t => s.callers t = .starting ∧ s.threads.length = s.numThreads
  | .callbackReturn t => s.callers t = .inCallback
  | .runInLoop t => s.callers t = .handing
  | .wakeup t => s.callers t = .waking
  | .thread i action => ∃ thread ∈ s.threads[i]?, thread.Enabled action ∧ OfDestructor action = false
  | .listen => 0 < s.pending ∧ s.callers baseThread = .outside

instance (s : ServerStart Functor) : ∀ action, Decidable (s.Enabled action)
  | .call _ | .exchange _ | .store _ | .callbackReturn _ | .runInLoop _ | .wakeup _ =>
      inferInstanceAs (Decidable (_ = _))
  | .emplace _ | .pushBack _ | .endLoop _ | .listen => inferInstanceAs (Decidable (_ ∧ _))
  | .thread i action =>
      inferInstanceAs (Decidable (∃ thread ∈ s.threads[i]?, _ ∧ OfDestructor action = false))

def setCaller (s : ServerStart Functor) (t : ThreadId) (point : StartPoint) :
    ServerStart Functor :=
  { s with callers := Function.update s.callers t point }

def next (s : ServerStart Functor) : StartAction Functor → ServerStart Functor
  | .call t => s.setCaller t .exchanging
  | .exchange t =>
      { s with started := true }.setCaller t (if s.started then .outside else .storing)
  | .store t => { s with poolStarted := true }.setCaller t .starting
  | .emplace t =>
      { s with threads := s.threads ++ [EventLoopThread.construct s.threadInitCallback] }.setCaller t
        .inStartLoop
  | .pushBack t =>
      match s.result with
      | some result => { s with loops := s.loops ++ [result] }.setCaller t .starting
      | none => s
  | .endLoop t =>
      s.setCaller t
        (if s.numThreads = 0 ∧ s.threadInitCallback = true then .inCallback else .handing)
  | .callbackReturn t => s.setCaller t .handing
  -- on the thread of the base loop the functor is called at once
  | .runInLoop t =>
      if t = baseThread then { s with listened := s.listened + 1 }.setCaller t .outside
      else { s with pending := s.pending + 1 }.setCaller t .waking
  | .wakeup t => s.setCaller t .outside
  | .thread i action =>
      match s.threads[i]? with
      | some thread => { s with threads := s.threads.set i (thread.next action) }
      | none => s
  | .listen => { s with pending := s.pending - 1, listened := s.listened + 1 }

end ServerStart

/-- All interleavings of the callers, the threads of the pool and the base loop. -/
def serverStart (Functor : Type) : Machine (ServerStart Functor) (StartAction Functor) where
  initial s := ∃ numThreads threadInitCallback, s = .construct numThreads threadInitCallback
  enabled := ServerStart.Enabled
  next := ServerStart.next

instance {Functor : Type} (s : ServerStart Functor) (action : StartAction Functor) :
    Decidable ((serverStart Functor).enabled s action) :=
  inferInstanceAs (Decidable (s.Enabled action))

end EduMuduo

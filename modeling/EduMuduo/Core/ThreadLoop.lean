/-
Module: EduMuduo.Core.ThreadLoop
Layer: Core
Purpose: The thread-local pointer `t_loopInThisThread` and the `EventLoop` objects of a process, on
  any number of threads.  A constructor runs through its member initializers, the test of the
  pointer, and the rest of its body; destructors run on any thread.  The assignment of the pointer
  stands behind `LOG_FATAL` in the block of the test, so it is part of no step.
Imports: EduMuduo.Library.Machine, Mathlib.Data.Nat.Notation
Trusted boundary: human-reviewed model
Main exports: Process, ConstructorPoint, LoopLifeAction, eventLoops
-/
import EduMuduo.Library.Machine
import Mathlib.Data.Nat.Notation

namespace EduMuduo

open Library

/-- `CurrentThread::tid()`. -/
abbrev Tid := Nat

/-- Where a thread is in the constructor of an `EventLoop`, here numbered in order of their starts;
the number stands for `this`. -/
inductive ConstructorPoint where
  | outside
  /-- in the member initializers or right behind them -/
  | initializing (loop : Nat)
  /-- behind the test of `t_loopInThisThread` -/
  | tested (loop : Nat)
deriving Repr, DecidableEq

structure Process where
  /-- `t_loopInThisThread` of each thread; `none` is `nullptr` -/
  loopInThisThread : Tid → Option Nat
  point : Tid → ConstructorPoint
  /-- the loops whose constructor has returned and that are not destroyed, with their `threadId_` -/
  live : List (Nat × Tid)
  /-- number of constructors started -/
  created : Nat
  exited : Bool

inductive LoopLifeAction where
  | construct (t : Tid)
  /-- `epoll_create1` or `eventfd` fails in a member initializer, which ends in `LOG_FATAL` -/
  | initializerFails (t : Tid)
  | testPointer (t : Tid)
  | constructorReturns (t : Tid)
  /-- `~EventLoop` of a live loop, run by thread `t` -/
  | destroy (t : Tid) (loop : Nat)
deriving Repr, DecidableEq

namespace Process

/-- No loop, and every pointer null. -/
def start : Process where
  loopInThisThread := fun _ => none
  point := fun _ => .outside
  live := []
  created := 0
  exited := false

/-- The live loops that belong to a thread. -/
def owned (s : Process) (t : Tid) : List Nat := (s.live.filter fun entry => entry.2 == t).map (·.1)

def setPoint (s : Process) (t : Tid) (point : ConstructorPoint) : Process :=
  { s with point := fun other => if other = t then point else s.point other }

def setLoopInThisThread (s : Process) (t : Tid) (loop : Option Nat) : Process :=
  { s with
    loopInThisThread := fun other => if other = t then loop else s.loopInThisThread other }

def Enabled (s : Process) : LoopLifeAction → Prop
  | .construct t => s.exited = false ∧ s.point t = .outside
  | .initializerFails t | .testPointer t =>
      s.exited = false ∧ ∃ loop, s.point t = .initializing loop
  | .constructorReturns t => s.exited = false ∧ ∃ loop, s.point t = .tested loop
  | .destroy t loop =>
      s.exited = false ∧ s.point t = .outside ∧ loop ∈ s.live.map (·.1)

instance (point : ConstructorPoint) : Decidable (∃ loop, point = .initializing loop) :=
  match point with
  | .outside => isFalse nofun
  | .initializing loop => isTrue ⟨loop, rfl⟩
  | .tested _ => isFalse nofun

instance (point : ConstructorPoint) : Decidable (∃ loop, point = .tested loop) :=
  match point with
  | .outside => isFalse nofun
  | .initializing _ => isFalse nofun
  | .tested loop => isTrue ⟨loop, rfl⟩

instance (s : Process) : ∀ action, Decidable (s.Enabled action)
  | .construct _ | .initializerFails _ | .testPointer _ | .constructorReturns _ | .destroy _ _ =>
      inferInstanceAs (Decidable (_ ∧ _))

def next (s : Process) : LoopLifeAction → Process
  | .construct t =>
      { s with created := s.created + 1 }.setPoint t (.initializing s.created)
  | .initializerFails _ => { s with exited := true }
  | .testPointer t =>
      match s.loopInThisThread t, s.point t with
      -- `LOG_FATAL` exits before `t_loopInThisThread = this`, which stands in the same block
      | some _, _ => { s with exited := true }
      | none, .initializing loop => s.setPoint t (.tested loop)
      | none, _ => s
  | .constructorReturns t =>
      match s.point t with
      | .tested loop => { s with live := s.live ++ [(loop, t)] }.setPoint t .outside
      | _ => s
  | .destroy t loop =>
      { s with live := s.live.filter fun entry => entry.1 != loop }.setLoopInThisThread t none

end Process

/-- All interleavings of constructions and destructions of loops on any threads. -/
def eventLoops : Machine Process LoopLifeAction where
  initial s := s = .start
  enabled := Process.Enabled
  next := Process.next

instance (s : Process) (action : LoopLifeAction) : Decidable (eventLoops.enabled s action) :=
  inferInstanceAs (Decidable (s.Enabled action))

end EduMuduo

/-
Module: EduMuduo.Core.EventLoopThreadPool
Layer: Core
Purpose: The pool of io loops.  `start` creates the threads one after another and keeps the loop
  that each of them hands over; `getNextLoop` goes round them with a 32-bit counter.  What a loop
  is stays open; the loop that `startLoop` of the `i`-th thread returns is a parameter.
Imports: EduMuduo.Core.Server
Trusted boundary: human-reviewed model
Main exports: EventLoopThreadPool, EventLoopThreadPool.start, EventLoopThreadPool.getNextLoop,
  EventLoopThreadPool.returned, TcpServer.pool, World.getNextLoop_eq_pool
-/
import EduMuduo.Core.Server

namespace EduMuduo

structure EventLoopThreadPool (Loop : Type) where
  baseLoop : Loop
  name : String
  started : Bool
  /-- an `int` -/
  numThreads : Int
  /-- a `std::atomic_uint` -/
  next : BitVec 32
  /-- the names under which the threads were created -/
  threads : List String
  loops : List Loop

namespace EventLoopThreadPool

variable {Loop : Type}

def construct (baseLoop : Loop) (name : String) : EventLoopThreadPool Loop where
  baseLoop := baseLoop
  name := name
  started := false
  numThreads := 0
  next := 0
  threads := []
  loops := []

def setThreadNum (pool : EventLoopThreadPool Loop) (numThreads : Int) :
    EventLoopThreadPool Loop :=
  { pool with numThreads := numThreads }

/-- The loop of `start` from thread `i` on, with `count` threads to go. -/
def startThreads (startLoop : Nat → Loop) (i : Nat) :
    Nat → EventLoopThreadPool Loop → EventLoopThreadPool Loop
  | 0, pool => pool
  | count + 1, pool => startThreads startLoop (i + 1) count
      { pool with
        threads := pool.threads ++ [pool.name ++ toString i]
        loops := pool.loops ++ [startLoop i] }

/-- The pool and the loops for which `start` itself calls `cb`; `reserve` throws on a negative
number. -/
def start (pool : EventLoopThreadPool Loop) (startLoop : Nat → Loop) (cb : Bool) :
    Option (EventLoopThreadPool Loop × List Loop) :=
  if pool.numThreads < 0 then none
  else
    some (startThreads startLoop 0 pool.numThreads.toNat { pool with started := true },
      if pool.numThreads = 0 ∧ cb then [pool.baseLoop] else [])

def getNextLoop (pool : EventLoopThreadPool Loop) : Loop × EventLoopThreadPool Loop :=
  if empty : pool.loops = [] then (pool.baseLoop, pool)
  else
    have bound : pool.next.toNat % pool.loops.length < pool.loops.length :=
      Nat.mod_lt _ (List.length_pos_iff.mpr empty)
    (pool.loops[pool.next.toNat % pool.loops.length], { pool with next := pool.next + 1 })

def getAllLoops (pool : EventLoopThreadPool Loop) : List Loop :=
  if pool.loops.isEmpty then [pool.baseLoop] else pool.loops

/-! ### Calls in a row -/

/-- The pool after `k` calls of `getNextLoop`. -/
def after (pool : EventLoopThreadPool Loop) : Nat → EventLoopThreadPool Loop
  | 0 => pool
  | k + 1 => (pool.after k).getNextLoop.2

/-- What `count` calls in a row return, from call `first` on. -/
def returned (pool : EventLoopThreadPool Loop) (first count : Nat) : List Loop :=
  (List.range' first count).map fun i => (pool.after i).getNextLoop.1

/-! ### Started pools -/

theorem startThreads_eq (startLoop : Nat → Loop) (i count : Nat)
    (pool : EventLoopThreadPool Loop) :
    startThreads startLoop i count pool =
      { pool with
        threads := pool.threads ++ (List.range' i count).map fun j => pool.name ++ toString j
        loops := pool.loops ++ (List.range' i count).map startLoop } := by
  induction count generalizing i pool with
  | zero => simp [startThreads]
  | succ count inductionHypothesis =>
      rw [startThreads, inductionHypothesis]
      simp [List.range'_succ]

/-- A started pool holds the loops of its threads in the order of their numbers, and `cb` is run
by `start` itself exactly when there is no thread to run it. -/
theorem start_spec {pool pool' : EventLoopThreadPool Loop} {startLoop : Nat → Loop} {cb : Bool}
    {called : List Loop} (starts : pool.start startLoop cb = some (pool', called)) :
    pool'.loops = pool.loops ++ (List.range pool.numThreads.toNat).map startLoop ∧
      pool'.next = pool.next ∧ pool'.started = true ∧
      (called = if pool.numThreads = 0 ∧ cb then [pool.baseLoop] else []) := by
  rw [start] at starts
  split at starts
  · cases starts
  · rw [startThreads_eq, Option.some.injEq, Prod.mk.injEq] at starts
    obtain ⟨rfl, rfl⟩ := starts
    exact ⟨by simp [List.range_eq_range'], rfl, rfl, rfl⟩

/-! ### The counter -/

theorem getNextLoop_snd (pool : EventLoopThreadPool Loop) :
    pool.getNextLoop.2 =
      { pool with next := if pool.loops = [] then pool.next else pool.next + 1 } := by
  by_cases empty : pool.loops = []
  · rw [getNextLoop, dif_pos empty, if_pos empty]
  · rw [getNextLoop, dif_neg empty, if_neg empty]

theorem getNextLoop_fst (pool : EventLoopThreadPool Loop) (some : pool.loops ≠ []) :
    pool.loops[pool.next.toNat % pool.loops.length]? = .some pool.getNextLoop.1 := by
  rw [getNextLoop, dif_neg some]
  exact List.getElem?_eq_getElem _

/-- What a call returns is one of the loops that `getAllLoops` returns, and a call changes
nothing about these. -/
theorem getNextLoop_mem_getAllLoops (pool : EventLoopThreadPool Loop) :
    pool.getNextLoop.1 ∈ pool.getAllLoops ∧
      pool.getNextLoop.2.getAllLoops = pool.getAllLoops := by
  constructor
  · by_cases empty : pool.loops = []
    · simp [getNextLoop, getAllLoops, empty]
    · have member := List.mem_of_getElem? (pool.getNextLoop_fst empty)
      simpa [getAllLoops, empty] using member
  · rw [getNextLoop_snd]
    rfl

/-- Calls move nothing but the counter. -/
theorem after_eq (pool : EventLoopThreadPool Loop) (some : pool.loops ≠ []) (k : Nat) :
    pool.after k = { pool with next := pool.next + BitVec.ofNat 32 k } := by
  induction k with
  | zero => simp [after]
  | succ k inductionHypothesis =>
      rw [after, inductionHypothesis, getNextLoop_snd]
      simp [some, BitVec.ofNat_add, BitVec.add_assoc]

/-- Call `i` on a pool whose counter starts at 0 returns the loop of that place. -/
theorem returns {pool : EventLoopThreadPool Loop} (some : pool.loops ≠ []) (fresh : pool.next = 0)
    (i : Nat) :
    pool.loops[i % 2 ^ 32 % pool.loops.length]? = .some (pool.after i).getNextLoop.1 := by
  have call := getNextLoop_fst (pool.after i) (by rw [after_eq pool some]; exact some)
  have counter : (pool.after i).next.toNat = i % 2 ^ 32 := by
    rw [after_eq pool some, fresh]
    simp
  have loops : (pool.after i).loops = pool.loops := by rw [after_eq pool some]
  rwa [counter, loops] at call

end EventLoopThreadPool

/-! ### The pool of a running server -/

/-- The pool that a server with `ioLoops` threads has started: loop 0 is the base loop. -/
def TcpServer.pool (server : TcpServer) : EventLoopThreadPool LoopId where
  baseLoop := 0
  name := server.name
  started := true
  numThreads := server.ioLoops
  next := BitVec.ofNat 32 server.next
  threads := (List.range server.ioLoops).map fun i => server.name ++ toString i
  loops := (List.range server.ioLoops).map (· + 1)

/-- `getNextLoop` of the running server is the pool's. -/
theorem World.getNextLoop_eq_pool (server : TcpServer) (range : server.next < 2 ^ 32) :
    (World.getNextLoop server).1 = server.pool.getNextLoop.1 ∧
      (World.getNextLoop server).2.pool = server.pool.getNextLoop.2 := by
  rw [World.getNextLoop, EventLoopThreadPool.getNextLoop]
  by_cases none : server.ioLoops = 0
  · simp [TcpServer.pool, none]
  · have counter : server.next % 4294967296 = server.next := Nat.mod_eq_of_lt range
    have wraps : BitVec.ofNat 32 ((server.next + 1) % 4294967296) =
        BitVec.ofNat 32 server.next + 1#32 := by
      rw [← BitVec.ofNat_add]
      exact BitVec.eq_of_toNat_eq (by simp)
    simp [TcpServer.pool, none, counter, Nat.add_comm, wraps]

end EduMuduo

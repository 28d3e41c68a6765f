/-
Module: EduMuduo.Library.BatchQueue
Layer: Library
Purpose: The two-list task queue of a single consumer that takes its work in batches.  Producers
  push behind `pending`; the consumer swaps `pending` out as a batch, runs the batch task by task,
  and keeps the tasks it has run until the batch is released.  A second layer adds a history and
  proves the law of such a queue over all runs: tasks run exactly once, in the order of their
  pushes, and each in a batch that was taken after its push.
Imports: EduMuduo.Library.Machine, Mathlib.Data.List.Forall2
Trusted boundary: none
Main exports: BatchQueue, BatchQueue.waiting, BatchHistory, batching,
  BatchHistory.executed_append_waiting, BatchHistory.executed_later
-/
import EduMuduo.Library.Machine
import Mathlib.Data.List.Forall2

namespace Library

structure BatchQueue (Task : Type*) where
  /-- tasks of the current batch that have run and are still stored -/
  ran : List Task
  /-- tasks of the current batch that have not run -/
  batch : List Task
  /-- tasks pushed since the last swap -/
  pending : List Task
deriving Repr, DecidableEq

namespace BatchQueue

variable {Task : Type*}

def empty : BatchQueue Task := ⟨[], [], []⟩

def push (q : BatchQueue Task) (task : Task) : BatchQueue Task :=
  { q with pending := q.pending ++ [task] }

/-- Push several tasks, the first one first. -/
def pushAll (q : BatchQueue Task) (tasks : List Task) : BatchQueue Task :=
  { q with pending := q.pending ++ tasks }

/-- Take everything pending as the next batch. -/
def swap (q : BatchQueue Task) : BatchQueue Task := ⟨[], q.pending, []⟩

/-- Move the next task of the batch to those that have run. -/
def advance (q : BatchQueue Task) : BatchQueue Task :=
  match q.batch with
  | [] => q
  | task :: rest => { q with ran := q.ran ++ [task], batch := rest }

def release (q : BatchQueue Task) : BatchQueue Task := { q with ran := [] }

/-- The tasks that have not run, in the order in which they will. -/
def waiting (q : BatchQueue Task) : List Task := q.batch ++ q.pending

/-- All tasks that are stored, run or not. -/
def stored (q : BatchQueue Task) : List Task := q.ran ++ q.waiting

@[simp] theorem waiting_empty : (empty : BatchQueue Task).waiting = [] := rfl

@[simp] theorem stored_empty : (empty : BatchQueue Task).stored = [] := rfl

@[simp] theorem waiting_push (q : BatchQueue Task) (task : Task) :
    (q.push task).waiting = q.waiting ++ [task] := by
  simp [waiting, push]

@[simp] theorem stored_push (q : BatchQueue Task) (task : Task) :
    (q.push task).stored = q.stored ++ [task] := by
  simp [stored, waiting, push]

@[simp] theorem waiting_pushAll (q : BatchQueue Task) (tasks : List Task) :
    (q.pushAll tasks).waiting = q.waiting ++ tasks := by
  simp [waiting, pushAll]

@[simp] theorem stored_pushAll (q : BatchQueue Task) (tasks : List Task) :
    (q.pushAll tasks).stored = q.stored ++ tasks := by
  simp [stored, waiting, pushAll]

@[simp] theorem waiting_release (q : BatchQueue Task) : q.release.waiting = q.waiting := rfl

@[simp] theorem stored_release (q : BatchQueue Task) : q.release.stored = q.waiting := rfl

/-- Taking a batch when the last one is used up changes no order. -/
theorem waiting_swap {q : BatchQueue Task} (done : q.batch = []) :
    q.swap.waiting = q.waiting := by
  simp [waiting, swap, done]

theorem stored_swap {q : BatchQueue Task} (done : q.batch = []) :
    q.swap.stored = q.waiting := by
  simp [stored, waiting, swap, done]

@[simp] theorem batch_push (q : BatchQueue Task) (task : Task) :
    (q.push task).batch = q.batch := rfl

/-- Running the next task takes it off the front. -/
theorem waiting_advance {q : BatchQueue Task} {task : Task} {rest : List Task}
    (next : q.batch = task :: rest) : q.waiting = task :: q.advance.waiting := by
  simp [waiting, advance, next]

/-- A task stays stored while it runs. -/
@[simp] theorem stored_advance (q : BatchQueue Task) : q.advance.stored = q.stored := by
  unfold advance
  split
  · rfl
  · rename_i next
    simp [stored, waiting, next]

end BatchQueue

/-! ### The law of the queue -/

/-- A queue with its history; every push and every run carries the number of batches taken
before it. -/
structure BatchHistory (Task : Type*) where
  queue : BatchQueue Task
  batches : Nat
  pushed : List (Nat × Task)
  executed : List (Nat × Task)

/-- The steps of producers and consumer. -/
inductive BatchStep (Task : Type*) where
  | push (task : Task)
  | swap
  | advance
  | release

namespace BatchHistory

variable {Task : Type*}

def empty : BatchHistory Task := ⟨.empty, 0, [], []⟩

/-- The consumer takes and releases a batch only between batches. -/
def Enabled (h : BatchHistory Task) : BatchStep Task → Prop
  | .push _ => True
  | .swap => h.queue.batch = []
  | .advance => h.queue.batch ≠ []
  | .release => h.queue.batch = []

def next (h : BatchHistory Task) : BatchStep Task → BatchHistory Task
  | .push task =>
      { h with queue := h.queue.push task, pushed := h.pushed ++ [(h.batches, task)] }
  | .swap => { h with queue := h.queue.swap, batches := h.batches + 1 }
  | .advance =>
      { h with
        queue := h.queue.advance
        executed := h.executed ++ (h.queue.batch.take 1).map fun task => (h.batches, task) }
  | .release => { h with queue := h.queue.release }

end BatchHistory

/-- All interleavings of producers with the consumer. -/
def batching (Task : Type*) : Machine (BatchHistory Task) (BatchStep Task) where
  initial h := h = .empty
  enabled := BatchHistory.Enabled
  next := BatchHistory.next

namespace BatchHistory

variable {Task : Type*}

/-- The pushes split into those that ran, those of the current batch and those pending, and the
stamps tell them apart. -/
structure Split (h : BatchHistory Task) (ran batch pending : List (Nat × Task)) : Prop where
  pushed : h.pushed = ran ++ (batch ++ pending)
  executed : List.Forall₂ (fun push run => push.2 = run.2 ∧ push.1 < run.1) ran h.executed
  batchTasks : batch.map Prod.snd = h.queue.batch
  batchStamps : ∀ push ∈ batch, push.1 < h.batches
  pendingTasks : pending.map Prod.snd = h.queue.pending
  pendingStamps : ∀ push ∈ pending, push.1 ≤ h.batches

/-- Every step keeps a split. -/
theorem Split.next {h : BatchHistory Task} {ran batch pending : List (Nat × Task)}
    (split : h.Split ran batch pending) {step : BatchStep Task} (guard : h.Enabled step) :
    ∃ ran batch pending, (h.next step).Split ran batch pending := by
  cases step with
  | push task =>
      refine ⟨ran, batch, pending ++ [(h.batches, task)], ?_⟩
      refine ⟨?_, split.executed, split.batchTasks, split.batchStamps, ?_, ?_⟩
      · simp [BatchHistory.next, split.pushed]
      · simp [BatchHistory.next, BatchQueue.push, split.pendingTasks]
      · intro push member
        rw [List.mem_append, List.mem_singleton] at member
        rcases member with old | rfl
        · exact split.pendingStamps push old
        · exact Nat.le_refl _
  | swap =>
      have used : batch = [] := List.map_eq_nil_iff.mp (split.batchTasks.trans guard)
      subst used
      refine ⟨ran, pending, [], ?_, split.executed, split.pendingTasks, ?_, rfl, ?_⟩
      · rw [List.append_nil]
        exact split.pushed
      · exact fun push member => Nat.lt_succ_of_le (split.pendingStamps push member)
      · exact fun push member => absurd member List.not_mem_nil
  | advance =>
      cases batch with
      | nil => exact absurd split.batchTasks.symm guard
      | cons first rest =>
          have head : h.queue.batch = first.2 :: rest.map Prod.snd := split.batchTasks.symm
          have stamp : first.1 < h.batches := split.batchStamps first (by simp)
          refine ⟨ran ++ [first], rest, pending, ?_, ?_, ?_, ?_, ?_, split.pendingStamps⟩
          · simp [BatchHistory.next, split.pushed]
          · have executed : (h.next .advance).executed = h.executed ++ [(h.batches, first.2)] := by
              simp [BatchHistory.next, head]
            rw [executed]
            exact List.rel_append split.executed (.cons ⟨rfl, stamp⟩ .nil)
          · simp [BatchHistory.next, BatchQueue.advance, head]
          · exact fun push member => split.batchStamps push (List.mem_cons_of_mem first member)
          · simp [BatchHistory.next, BatchQueue.advance, head, split.pendingTasks]
  | release =>
      exact ⟨ran, batch, pending, split.pushed, split.executed, split.batchTasks,
        split.batchStamps, split.pendingTasks, split.pendingStamps⟩

theorem exists_split {h : BatchHistory Task} (reachable : (batching Task).Reachable h) :
    ∃ ran batch pending, h.Split ran batch pending := by
  refine reachable.invariant (I := fun h => ∃ ran batch pending, h.Split ran batch pending) ?_ ?_
  · rintro h rfl
    exact ⟨[], [], [], rfl, .nil, rfl, by simp, rfl, by simp⟩
  · rintro h step _ ⟨ran, batch, pending, split⟩ guard
    exact split.next guard

/-- Exactly once, in order: what has run, then what waits, is what was pushed. -/
theorem executed_append_waiting {h : BatchHistory Task}
    (reachable : (batching Task).Reachable h) :
    h.executed.map Prod.snd ++ h.queue.waiting = h.pushed.map Prod.snd := by
  obtain ⟨ran, batch, pending, split⟩ := exists_split reachable
  have tasks : ran.map Prod.snd = h.executed.map Prod.snd := by
    rw [← List.forall₂_eq_eq_eq, List.forall₂_map_left_iff, List.forall₂_map_right_iff]
    exact split.executed.imp fun _ _ both => both.1
  rw [split.pushed, List.map_append, List.map_append, split.batchTasks, split.pendingTasks, tasks]
  rfl

/-- Every task that ran did so in a batch taken after its push. -/
theorem executed_later {h : BatchHistory Task} (reachable : (batching Task).Reachable h) :
    List.Forall₂ (fun push run => push.1 < run.1)
      (h.pushed.take h.executed.length) h.executed := by
  obtain ⟨ran, batch, pending, split⟩ := exists_split reachable
  have front : h.pushed.take h.executed.length = ran := by
    rw [split.pushed, ← split.executed.length_eq, List.take_left]
  rw [front]
  exact split.executed.imp fun _ _ both => both.2

end BatchHistory

end Library

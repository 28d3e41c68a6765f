/-
Module: EduMuduo.Proofs.EventualCalls
Layer: Proofs
Purpose: What waits on a loop is run.  In a fair run a job on the stack of a loop thread comes to the
  top and is taken up, and a functor in the queue gets into a batch and is called, unless the loop
  stops: its thread gets through the current part of `loop()`, whatever is queued behind the functor
  and whatever user code does.
Imports: EduMuduo.Proofs.Termination
Trusted boundary: none
Main exports: World.waitRank, queued_task_called, stacked_job_taken, waiting_task_runs
-/
import EduMuduo.Proofs.Termination

namespace EduMuduo

open Library

namespace World

/-! ### Functors in the queue -/

/-- The parts of `loop()` that come before the batch with the functor. -/
def waitRank (task : Task) (loop : Loop) : Nat :=
  if task ∈ loop.functors.batch then 0
  else
    match loop.phase with
    | .entering => 4
    | .draining => 3
    | .polling => 2
    | .handling => 1
    | .stopped => 0

section Queue

variable {w : World} {a : Action} {l : LoopId} {task : Task}

theorem waitRank_of_mem {loop : Loop} (member : task ∈ loop.functors.batch) :
    waitRank task loop = 0 := if_pos member

theorem waitRank_of_empty {loop : Loop} (empty : loop.functors.batch = []) :
    waitRank task loop = match loop.phase with
      | .entering => 4
      | .draining => 3
      | .polling => 2
      | .handling => 1
      | .stopped => 0 := by
  rw [waitRank, empty]
  exact if_neg List.not_mem_nil

theorem waitRank_congr {loop loop' : Loop} (phase : loop'.phase = loop.phase)
    (batch : task ∈ loop'.functors.batch ↔ task ∈ loop.functors.batch) :
    waitRank task loop' = waitRank task loop := by
  rw [waitRank, waitRank, phase]
  simp only [batch]

/-- Whether a functor is in the batch changes with its call and with the swap only. -/
theorem mem_batch_next (placed : w.Placed) (guard : w.Enabled a)
    (drains : a ≠ .doPendingFunctors l) (uncalled : ¬ w.CallsNext a l task) :
    task ∈ ((w.next a).loops l).functors.batch ↔ task ∈ (w.loops l).functors.batch := by
  have change := next_queue placed guard l
  generalize ((w.next a).loops l).functors = queue at change ⊢
  cases change with
  | intro base queued source appends =>
      cases source with
      | same idle => exact Iff.rfl
      | released running => exact Iff.rfl
      | swapped running done => exact absurd running drains
      | advanced kernel first rest running bottom next =>
          have other : task ≠ first := by
            rintro rfl
            exact uncalled ⟨⟨kernel, running⟩, bottom, by rw [next]; rfl⟩
          have left : (w.loops l).functors.advance.batch = rest := by
            rw [BatchQueue.advance, next]
          change task ∈ (w.loops l).functors.advance.batch ↔ _
          rw [left, next, List.mem_cons]
          exact (or_iff_right other).symm

/-- Until the functor is called its loop only gets closer to the batch. -/
theorem falls_of_waiting (sound : w.Sound) (guard : w.Enabled a)
    (waits : task ∈ (w.loops l).functors.waiting) (uncalled : ¬ w.CallsNext a l task)
    (running : (w.loops l).phase ≠ .stopped) : Falls (waitRank task) w a l := by
  have falls : waitRank task ((w.next a).loops l) < waitRank task (w.loops l) →
      Falls (waitRank task) w a l := fun less => ⟨Nat.le_of_lt less, fun _ _ => less⟩
  have between := (sound.placed.loops l).between
  by_cases turns : turns? a = some l
  · cases a with
    | enterLoop l' =>
        cases turns
        apply falls
        have empty : (w.loops l).functors.batch = [] := (between (by rw [guard.2.1]; decide)).1
        rw [waitRank_of_empty empty, guard.2.1, World.next, setLoop_loops,
          Function.update_self, waitRank_of_empty (by exact empty)]
        exact Nat.lt_succ_self 3
    | poll l' active =>
        cases turns
        apply falls
        have empty : (w.loops l).functors.batch = [] := (between (by rw [guard.2.1]; decide)).1
        rw [waitRank_of_empty empty, guard.2.1, World.next, setLoop_loops,
          Function.update_self, waitRank_of_empty (by exact empty)]
        exact Nat.lt_succ_self 1
    | doPendingFunctors l' =>
        cases turns
        apply falls
        have empty : (w.loops l).functors.batch = [] := (between (by rw [guard.2.1]; decide)).1
        rw [BatchQueue.waiting, empty, List.nil_append] at waits
        rw [waitRank_of_empty empty, guard.2.1, World.next, setLoop_loops,
          Function.update_self, waitRank_of_mem (by exact waits)]
        exact Nat.one_pos
    | endBatch l' =>
        cases turns
        apply falls
        rw [waitRank_of_empty guard.2.2.2, guard.2.1, World.next, setLoop_loops,
          Function.update_self, waitRank_of_empty (by exact guard.2.2.2)]
        cases (w.loops l).quit with
        | true => exact Nat.succ_pos 2
        | false => exact Nat.lt_succ_self 2
    | handleEvent l' named =>
        cases turns
        have phase : ((w.next (.handleEvent l named)).loops l).phase = (w.loops l).phase := by
          rw [World.next]
          split
          · rfl
          · rw [part_handleEvent Loop.steady_phase]
            exact setLoop_part_same Loop.phase _ _ _ rfl
        have batch := mem_batch_next sound.placed guard (fun same => by cases same) uncalled
        exact ⟨Nat.le_of_eq (waitRank_congr phase batch), fun _ other => absurd rfl (other named)⟩
    | destroyLoop l' =>
        cases turns
        exact absurd guard.2.2.1 running
    | _ => cases turns
  · have phase := part_next Loop.steady_phase guard turns
    have drains : a ≠ .doPendingFunctors l := by
      rintro rfl
      exact turns rfl
    have batch := mem_batch_next sound.placed guard drains uncalled
    exact ⟨Nat.le_of_eq (waitRank_congr phase batch), fun other => absurd other turns⟩

end Queue

end World

section Runs

variable {w : World} {schedule : Nat → Action} {l : LoopId}

/-- What has a functor to run is a loop of the server. -/
theorem isLoop_of_task (run : FairRun w schedule) (reachable : server.Reachable w) {task : Task}
    {n : Nat} (waits : task ∈ ((server.stateAt w schedule n).loops l).tasks) : w.isLoop l := by
  by_contra outside
  have here := reachable.stateAt run.admitted n
  have none := (inRange here).tasks (placed here) ((isLoop_stateAt n).not.mpr outside)
  rw [none] at waits
  cases waits

/-- A functor in the queue of a loop is called, unless the loop stops. -/
theorem queued_task_called (run : FairRun w schedule) (reachable : server.Reachable w)
    (acts : Acts w schedule l) {task : Task} {n : Nat}
    (waits : task ∈ ((server.stateAt w schedule n).loops l).functors.waiting) :
    ∃ m, n ≤ m ∧ ((server.stateAt w schedule m).CallsNext (schedule m) l task ∨
      ((server.stateAt w schedule m).loops l).phase = .stopped) := by
  have within := isLoop_of_task run reachable (List.mem_append_right _ waits)
  by_contra never
  have uncalled : ∀ m, n ≤ m → ¬ (server.stateAt w schedule m).CallsNext (schedule m) l task :=
    fun m later called => never ⟨m, later, .inl called⟩
  have running : ∀ m, n ≤ m → ((server.stateAt w schedule m).loops l).phase ≠ .stopped :=
    fun m later stopped => never ⟨m, later, .inr stopped⟩
  obtain ⟨_, _, impossible⟩ := run.eventually reachable within acts (World.waitRank task)
    (fun w => task ∈ (w.loops l).functors.waiting ∧ (w.loops l).phase ≠ .stopped)
    (fun _ => False)
    (by
      intro m later kept _
      have here := sound (reachable.stateAt run.admitted m)
      refine ⟨⟨?_, running (m + 1) (Nat.le_succ_of_le later)⟩, ?_⟩
      · exact World.waiting_next here.placed (run.admitted m) kept.1 (uncalled m later)
      · exact World.falls_of_waiting here (run.admitted m) kept.1 (uncalled m later) kept.2)
    (fun w kept _ ended => kept.2 ended.phase)
    ⟨waits, running n (Nat.le_refl n)⟩
  exact impossible

end Runs

/-! ### Jobs on the stack -/

section Runs

variable {w : World} {schedule : Nat → Action} {l : LoopId}

/-- A job on the stack of a loop thread comes to the top and is taken up. -/
theorem stacked_job_taken (run : FairRun w schedule) (reachable : server.Reachable w)
    (acts : Acts w schedule l) {job : Job} {n : Nat}
    (onStack : .job job ∈ ((server.stateAt w schedule n).loops l).stack) :
    ∃ m, n ≤ m ∧ (server.stateAt w schedule m).TakesUp (schedule m) l job := by
  have within : w.isLoop l := by
    by_contra outside
    have inside := (inRange (reachable.stateAt run.admitted n)).stack l
      ((isLoop_stateAt n).not.mpr outside)
    rw [inside] at onStack
    cases onStack
  by_contra never
  have left : ∀ m, n ≤ m → ¬ (server.stateAt w schedule m).TakesUp (schedule m) l job :=
    fun m later takes => never ⟨m, later, takes⟩
  obtain ⟨_, _, impossible⟩ := run.eventually reachable within acts (fun _ => 0)
    (fun w => .job job ∈ (w.loops l).stack) (fun _ => False)
    (by
      intro m later kept _
      refine ⟨World.stacked_next (run.admitted m) kept (left m later), ?_⟩
      exact World.falls_of_called (sound (reachable.stateAt run.admitted m)) (run.admitted m)
        (List.ne_nil_of_mem kept))
    (fun w kept _ => not_ended_of_stack (List.ne_nil_of_mem kept))
    onStack
  exact impossible

end Runs

/-! ### Functors anywhere -/

theorem Frame.eq_of_task {frame : Frame} {task : Task} (call : frame.task? = some task) :
    frame = .job (.task task) := by
  cases frame with
  | job job =>
      cases job with
      | task functor =>
          cases call
          rfl
      | _ => cases call
  | _ => cases call

namespace World

/-- The loop on which it belongs runs `task`. -/
def RunsTask (w : World) (a : Action) (task : Task) : Prop :=
  ∃ kernel, a = .run (w.target task) kernel ∧ w.current (w.target task) = some (.task task)

section Tasks

variable {w : World} {a : Action} {l : LoopId} {task : Task}

/-- The job that is run is one that belongs here. -/
theorem runsTask_of_run {kernel : Kernel} (guard : w.Enabled (.run l kernel))
    (current : w.current l = some (.task task)) : w.RunsTask (.run l kernel) task := by
  obtain ⟨_, job, found, here, _⟩ := guard
  cases current.symm.trans found
  have target : w.target task = l := here
  exact ⟨kernel, by rw [target], by rw [target, current]⟩

/-- The call of the next functor of a batch runs it. -/
theorem CallsNext.runsTask (guard : w.Enabled a) (calls : w.CallsNext a l task) :
    w.RunsTask a task := by
  obtain ⟨kernel, rfl⟩ := calls.runs
  obtain ⟨job, loop, fetched, found, _⟩ := enabled_run guard
  cases Loop.fetched fetched with
  | called _ rest top =>
      rw [calls.bottom] at top
      cases top
  | functor other rest empty draining next =>
      have first := calls.next
      rw [next] at first
      cases first
      exact runsTask_of_run guard found

/-- A functor keeps its loop. -/
theorem target_next (placed : w.Placed) (guard : w.Enabled a) (known : task.conn < w.created) :
    (w.next a).target task = w.target task := by
  cases task with
  | removeConnectionInLoop c => rfl
  | _ => exact (placed.next_extends guard).loop _ known

/-- A thread stays in `queueInLoop` until it has queued its functor. -/
theorem calling_kept (guard : w.Enabled a) {t : ThreadId}
    (calling : (w.threads t).calling = some task) (idle : a ≠ .queueInLoop t) :
    ((w.next a).threads t).calling = some task := by
  have change := next_thread guard t
  generalize (w.next a).threads t = thread at change ⊢
  cases change with
  | same | gained | dropped => exact calling
  | called other free called =>
      rw [free] at calling
      cases calling
  | queued other running calling' => exact absurd running idle

/-- The functor that it has queued waits on its loop. -/
theorem waiting_of_queueInLoop (placed : w.Placed) {t : ThreadId}
    (guard : w.Enabled (.queueInLoop t)) (calling : (w.threads t).calling = some task) :
    task ∈ ((w.next (.queueInLoop t)).loops
      ((w.next (.queueInLoop t)).target task)).functors.waiting := by
  rw [target_next placed guard ((placed.threads t).calling task calling).2.1]
  simp only [next, calling]
  rw [functors_queueInLoop, if_pos rfl, BatchQueue.waiting_pushAll]
  exact List.mem_append_right _ (List.mem_singleton_self _)

end Tasks

end World

section Runs

variable {w : World} {schedule : Nat → Action} {l : LoopId}

theorem isThread_stateAt {t : ThreadId} (n : Nat) :
    (server.stateAt w schedule n).isThread t ↔ w.isThread t := by
  have users : (server.stateAt w schedule n).users = w.users := by
    induction n with
    | zero => rfl
    | succ n inductionHypothesis => exact (World.next_users _ _).trans inductionHypothesis
  rw [World.isThread, World.isThread, users]

theorem target_stateAt (run : FairRun w schedule) (reachable : server.Reachable w) {task : Task}
    {n : Nat} (known : task.conn < (server.stateAt w schedule n).created) {m : Nat}
    (later : n ≤ m) : (server.stateAt w schedule m).target task =
      (server.stateAt w schedule n).target task := by
  have both : task.conn < (server.stateAt w schedule m).created ∧
      (server.stateAt w schedule m).target task =
        (server.stateAt w schedule n).target task := by
    induction later with
    | refl => exact ⟨known, rfl⟩
    | @step m later inductionHypothesis =>
        have here := placed (reachable.stateAt run.admitted m)
        have grown := here.next_extends (run.admitted m)
        constructor
        · exact Nat.lt_of_lt_of_le inductionHypothesis.1 grown.created
        · exact (World.target_next here (run.admitted m) inductionHypothesis.1).trans
            inductionHypothesis.2
  exact both.2

/-- A functor in a queue is run on the loop on which it belongs, unless that loop stops. -/
theorem queued_task_runs (run : FairRun w schedule) (reachable : server.Reachable w)
    (acts : Acts w schedule l) {task : Task} {n : Nat}
    (waits : task ∈ ((server.stateAt w schedule n).loops l).functors.waiting) :
    ∃ m, n ≤ m ∧ ((server.stateAt w schedule m).RunsTask (schedule m) task ∨
      ((server.stateAt w schedule m).loops
        ((server.stateAt w schedule n).target task)).phase = .stopped) := by
  obtain ⟨m, later, calls | stopped⟩ := queued_task_called run reachable acts waits
  · exact ⟨m, later, .inl (calls.runsTask (run.admitted m))⟩
  · have here := placed (reachable.stateAt run.admitted n)
    have target := (here.loops l).waiting task waits
    exact ⟨m, later, .inr (target.2 ▸ stopped)⟩

/-- A functor that a loop holds, in its queue or as a call on the stack of its thread, is run on the
loop on which it belongs, unless that loop stops. -/
theorem held_task_runs (run : FairRun w schedule) (reachable : server.Reachable w)
    (acts : Acts w schedule l) {task : Task} {n : Nat}
    (onward : Acts w schedule ((server.stateAt w schedule n).target task))
    (waits : task ∈ ((server.stateAt w schedule n).loops l).tasks) :
    ∃ m, n ≤ m ∧ ((server.stateAt w schedule m).RunsTask (schedule m) task ∨
      ((server.stateAt w schedule m).loops
        ((server.stateAt w schedule n).target task)).phase = .stopped) := by
  have known := ((placed (reachable.stateAt run.admitted n)).task_ok waits).1.1
  rcases List.mem_append.mp waits with onStack | queued
  · obtain ⟨frame, member, call⟩ := List.mem_filterMap.mp onStack
    have same := Frame.eq_of_task call
    subst same
    obtain ⟨m, later, takes⟩ := stacked_job_taken run reachable acts member
    have guard := run.admitted m
    by_cases belongs : (server.stateAt w schedule m).target task = l
    · obtain ⟨⟨kernel, running⟩, current⟩ := takes.runs guard belongs
      rw [running] at guard
      refine ⟨m, later, .inl ?_⟩
      rw [running]
      exact World.runsTask_of_run guard current
    · -- it is handed to its own loop, and waits there
      obtain ⟨rest, top⟩ := List.head?_eq_some_iff.mp takes.top
      have handed : (server.stateAt w schedule m).submitted l = some task := by
        rw [World.submitted, top]
        exact if_neg belongs
      rcases takes.step with ⟨kernel, running⟩ | running
      · rw [running] at guard
        obtain ⟨_, job, found, here, _⟩ := guard
        rw [World.current, Loop.fetch, top] at found
        cases found
        exact absurd here belongs
      · have queued : task ∈ ((server.stateAt w schedule (m + 1)).loops
            ((server.stateAt w schedule m).target task)).functors.waiting := by
          rw [Machine.stateAt_succ, running]
          change task ∈ ((World.next _ (.submit l)).loops _).functors.waiting
          simp only [World.next, handed]
          rw [World.functors_queueInLoop, if_pos rfl, BatchQueue.waiting_pushAll]
          exact List.mem_append_right _ (List.mem_singleton_self _)
        have same := target_stateAt run reachable known later
        obtain ⟨m', later', runs | stopped⟩ :=
          queued_task_runs run reachable (same ▸ onward) queued
        · exact ⟨m', by omega, .inl runs⟩
        · rw [target_stateAt run reachable known (by omega)] at stopped
          exact ⟨m', by omega, .inr stopped⟩
  · exact queued_task_runs run reachable acts queued

/-- A thread that is in `queueInLoop` gets through it. -/
theorem call_queued (run : FairRun w schedule) (reachable : server.Reachable w) {t : ThreadId}
    (prompt : server.Fair w schedule (· = .queueInLoop t)) {task : Task} {n : Nat}
    (calling : ((server.stateAt w schedule n).threads t).calling = some task) :
    ∃ m, n ≤ m ∧ task ∈ ((server.stateAt w schedule m).loops
      ((server.stateAt w schedule m).target task)).functors.waiting := by
  by_contra never
  have unqueued : ∀ m, n ≤ m → ((server.stateAt w schedule m).threads t).calling = some task →
      schedule m ≠ .queueInLoop t := by
    intro m later here running
    have guard := run.admitted m
    rw [running] at guard
    have waits := World.waiting_of_queueInLoop (placed (reachable.stateAt run.admitted m)) guard here
    refine never ⟨m + 1, Nat.le_succ_of_le later, ?_⟩
    rw [Machine.stateAt_succ, running]
    exact waits
  have stays : ∀ m, n ≤ m → ((server.stateAt w schedule m).threads t).calling = some task := by
    intro m later
    induction later with
    | refl => exact calling
    | @step m later inductionHypothesis =>
        exact World.calling_kept (run.admitted m) inductionHypothesis
          (unqueued m later inductionHypothesis)
  obtain ⟨m, later, running⟩ := prompt n fun m later => by
    have here := stays m later
    refine ⟨_, rfl, ?_, by rw [here]; rfl⟩
    by_contra outside
    rw [(inRange (reachable.stateAt run.admitted m)).threads t outside] at here
    cases here
  exact unqueued m later (stays m later) running

/-- Whatever functor has been handed over and not yet run, be it in the queue of a loop, a call on
the stack of a loop thread or an argument of the `queueInLoop` that a thread of the user is in, is
run on the loop on which it belongs, unless that loop stops or the base loop's thread is kept for
ever in the `join()` of `~TcpServer`. -/
theorem waiting_task_runs (run : FairRun w schedule) (reachable : server.Reachable w)
    (prompt : ∀ t, w.isThread t → server.Fair w schedule (· = .queueInLoop t)) {task : Task}
    {n : Nat} (waits : (server.stateAt w schedule n).Waits task) :
    ∃ m, n ≤ m ∧ ((server.stateAt w schedule m).RunsTask (schedule m) task ∨
      ((server.stateAt w schedule m).loops
        ((server.stateAt w schedule n).target task)).phase = .stopped ∨
      JoinsForEver w schedule m) := by
  have here := reachable.stateAt run.admitted n
  by_cases returns : ∃ k, JoinsForEver w schedule k
  · obtain ⟨k, joins⟩ := returns
    exact ⟨max n k, Nat.le_max_left n k, .inr (.inr (joins.mono (Nat.le_max_right n k)))⟩
  have acts {l : LoopId} (within : w.isLoop l) : Acts w schedule l :=
    run.acts reachable (not_exists.mp returns) within
  have onward : Acts w schedule ((server.stateAt w schedule n).target task) :=
    acts ((isLoop_stateAt n).mp ((inRange here).target ((placed here).known_of_waits waits)))
  rcases waits with ⟨l, held⟩ | ⟨t, calling⟩
  · obtain ⟨m, later, outcome⟩ :=
      held_task_runs run reachable (acts (isLoop_of_task run reachable held)) onward held
    exact ⟨m, later, outcome.imp_right .inl⟩
  · have inside : w.isThread t := by
      by_contra outside
      rw [(inRange here).threads t ((isThread_stateAt n).not.mpr outside)] at calling
      cases calling
    have known := ((placed here).threads t).calling task calling
    obtain ⟨m, later, queued⟩ := call_queued run reachable (prompt t inside) calling
    have same := target_stateAt run reachable known.2.1 later
    obtain ⟨m', later', runs | stopped⟩ :=
      queued_task_runs run reachable (same ▸ onward) queued
    · exact ⟨m', by omega, .inl runs⟩
    · rw [same] at stopped
      exact ⟨m', by omega, .inr (.inl stopped)⟩

end Runs

/-- Thread 0 is in a `send`. -/
def demoSending : List Action := demoOpening ++ [.send 0 0 [1]]

/-- It queues the functor, loop 1 runs it, and both loops quit. -/
def demoSent : List Action :=
  [.queueInLoop 0, .poll 1 [], .doPendingFunctors 1, .run 1 demoKernel, .quit 1, .endBatch 1,
    .destroyLoop 1, .doPendingFunctors 0, .quit 0, .endBatch 0]

theorem demoSent_fair :
    FairRun (server.exec (demoServer 1 1) demoSending) (demoSent.getD · (.quit 0)) := by
  apply FairRun.of_both_ended (by decide +kernel) (by decide +kernel)
  · exact ⟨⟨by decide +kernel, by decide +kernel⟩, nofun⟩
  · exact ⟨⟨by decide +kernel, by decide +kernel⟩, fun _ => by decide +kernel⟩

theorem demoSent_prompt (t : ThreadId)
    (inside : (server.exec (demoServer 1 1) demoSending).isThread t) :
    server.Fair (server.exec (demoServer 1 1) demoSending) (demoSent.getD · (.quit 0))
      (· = .queueInLoop t) := by
  obtain rfl := Nat.lt_one_iff.mp inside
  have stays : ∀ w : World, (w.threads 0).calling = none →
      server.enabled w (.quit 0) ∧ ((w.next (.quit 0)).threads 0).calling = none :=
    fun w free => ⟨Nat.zero_le _, free⟩
  have free := (Machine.admitsEndless_getD stays
    (show server.Admits (server.exec (demoServer 1 1) demoSending) demoSent by decide +kernel)
    (by decide +kernel)).2
  intro n enabled
  obtain ⟨a, rfl, guard⟩ := enabled _ (Nat.le_max_left n demoSent.length)
  have idle := guard.2
  rw [free _ (Nat.le_max_right n demoSent.length)] at idle
  cases idle

theorem waiting_task_runs_demo :
    ∃ m, 0 ≤ m ∧ ((server.stateAt (server.exec (demoServer 1 1) demoSending)
        (demoSent.getD · (.quit 0)) m).RunsTask (demoSent.getD m (.quit 0))
          (.sendInLoop 0 [1] (.thread 0)) ∨
      ((server.stateAt (server.exec (demoServer 1 1) demoSending)
        (demoSent.getD · (.quit 0)) m).loops
          ((server.stateAt (server.exec (demoServer 1 1) demoSending)
            (demoSent.getD · (.quit 0)) 0).target
              (.sendInLoop 0 [1] (.thread 0)))).phase = .stopped ∨
      JoinsForEver (server.exec (demoServer 1 1) demoSending) (demoSent.getD · (.quit 0)) m) := by
  have admitted : server.Admits (demoServer 1 1) demoSending := by decide +kernel
  exact waiting_task_runs (n := 0) demoSent_fair (admitted.reachable (demoServer_initial 1 1))
    demoSent_prompt (.inr ⟨0, by decide +kernel⟩)

end EduMuduo

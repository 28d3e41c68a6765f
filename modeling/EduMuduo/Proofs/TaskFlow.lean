/-
Module: EduMuduo.Proofs.TaskFlow
Layer: Proofs
Purpose: What one step of the server can do to the functors that a loop thread has still to run,
  said once (`Flow`): at most one is taken from the front, calls are put before the rest, and
  queued functors behind it.  Invariants about the order and the number of functors are proved
  from this inversion and do not look at the actions again.
Imports: EduMuduo.Proofs.Placement
Trusted boundary: none
Main exports: Loop.tasks, World.Taken, World.Pushed, World.Appended, World.Flow, World.next_flow
-/
import EduMuduo.Proofs.Placement

namespace EduMuduo

open Library

/-! ### The functors that a loop thread has still to run -/

/-- The functor that a frame is a call of. -/
def Frame.task? : Frame → Option Task
  | .job (.task task) => some task
  | .job (.callback _ _) | .job (.releaseGuard _) | .job (.closeCallback _)
  | .job (.removeChannel _) | .user _ | .destroyServer | .quitThread _ | .joinThread _
  | .destroyAcceptor => none

/-- The functor that a job is a call of. -/
def Job.task? (job : Job) : Option Task := (Frame.job job).task?

/-- The jobs that queue callbacks of the user: `sendInLoop` and `handleWrite`. -/
def Job.notifies : Job → Bool
  | .task (.sendInLoop _ _ _) | .callback .write _ => true
  | _ => false

namespace Loop

/-- First the calls on the stack, then the queue. -/
def tasks (loop : Loop) : List Task :=
  loop.stack.filterMap Frame.task? ++ loop.functors.waiting

@[simp] theorem tasks_push (loop : Loop) (frames : List Frame) :
    (loop.push frames).tasks = frames.filterMap Frame.task? ++ loop.tasks := by
  simp [tasks, push]

@[simp] theorem tasks_queueInLoop (loop : Loop) (tasks : List Task) :
    (loop.queueInLoop tasks).tasks = loop.tasks ++ tasks := by
  simp [Loop.tasks, queueInLoop]

theorem tasks_pop {loop : Loop} {frame : Frame} {rest : List Frame}
    (top : loop.stack = frame :: rest) :
    loop.tasks = frame.task?.toList ++ loop.pop.tasks := by
  cases called : frame.task? <;> simp [tasks, pop, top, called]

/-- Fetching a job takes its call, if it is one, off the front. -/
theorem tasks_fetch {loop after : Loop} {job : Job} (fetched : loop.fetch = some (job, after)) :
    loop.tasks = job.task?.toList ++ after.tasks := by
  cases Loop.fetched fetched with
  | called _ rest top => exact tasks_pop top
  | functor task rest bottom draining next =>
      simp [tasks, bottom, BatchQueue.waiting_advance next, Job.task?, Frame.task?]

end Loop

namespace World

/-! ### What a step takes and adds -/

/-- Action `a` runs no functor on loop `l`. -/
def Idle (w : World) (a : Action) (l : LoopId) : Prop :=
  ∀ kernel task, a = .run l kernel → w.current l ≠ some (.task task)

/-- The functor that action `a` takes from loop `l`. -/
inductive Taken (w : World) (a : Action) (l : LoopId) : Option Task → Prop where
  | nothing (idle : w.Idle a l) : Taken w a l none
  | ran (kernel : Kernel) (task : Task) (running : a = .run l kernel)
      (current : w.current l = some (.task task)) : Taken w a l (some task)
  | submitted (task : Task) (running : a = .submit l) (top : w.submitted l = some task) :
      Taken w a l (some task)

/-- A call that action `a` puts on the stack of loop `l`. -/
inductive Pushed (w : World) (a : Action) (l : LoopId) : Task → Prop where
  | connectEstablished (accepting : a = .handleEvent l true) :
      Pushed w a l (.connectEstablished w.created)
  | removeConnectionInLoop (kernel : Kernel) (c : ConnId) (running : a = .run l kernel)
      (current : w.current l = some (.closeCallback c)) : Pushed w a l (.removeConnectionInLoop c)
  | sendInLoop (c : ConnId) (data : List Byte) (running : a = .userSend l c data)
      (connected : (w.conns c).conn.connected = true) :
      Pushed w a l (.sendInLoop c data (.loop l))
  | shutdownInLoop (c : ConnId) (running : a = .userShutdown l c)
      (connected : (w.conns c).conn.state = .connected) : Pushed w a l (.shutdownInLoop c)
  | connectDestroyed (c : ConnId) (running : a = .destroyConnection c) (base : l = 0)
      (here : (w.conns c).conn.loop = 0) : Pushed w a l (.connectDestroyed c)

/-- A functor that action `a` appends on loop `l`. -/
inductive Appended (w : World) (a : Action) (l : LoopId) : Task → Prop where
  | connectEstablished (l' : LoopId) (accepting : a = .handleEvent l' true) :
      Appended w a l (.connectEstablished w.created)
  | byJob (l' : LoopId) (kernel : Kernel) (job : Job) (running : a = .run l' kernel)
      (current : w.current l' = some job) (task : Task)
      (member : task ∈ (w.perform l' kernel job).queued)
      (target : l = (w.perform l' kernel job).target) : Appended w a l task
  | submitted (l' : LoopId) (task : Task) (running : a = .submit l')
      (top : w.submitted l' = some task) (target : w.target task = l) : Appended w a l task
  | byThread (t : ThreadId) (task : Task) (running : a = .queueInLoop t)
      (calling : (w.threads t).calling = some task) (target : w.target task = l) :
      Appended w a l task
  | connectDestroyed (c : ConnId) (running : a = .destroyConnection c)
      (here : (w.conns c).conn.loop = l) : Appended w a l (.connectDestroyed c)

/-- Everything that action `a` can make of the functors of loop `l`. -/
inductive Flow (w : World) (a : Action) (l : LoopId) (after : List Task) : Prop where
  | intro (taken : Option Task) (pushed rest queued : List Task) (takes : Taken w a l taken)
      (before : (w.loops l).tasks = taken.toList ++ rest)
      (same : after = pushed ++ rest ++ queued)
      (pushes : ∀ task ∈ pushed, Pushed w a l task)
      (appends : ∀ task ∈ queued, Appended w a l task)
      (few : (pushed ++ queued).countP Task.hop ≤ 1)

theorem Flow.same {w : World} {a : Action} {l : LoopId} {after : List Task} (idle : w.Idle a l)
    (same : after = (w.loops l).tasks) : Flow w a l after :=
  ⟨none, [], (w.loops l).tasks, [], .nothing idle, rfl, by simp [same], List.forall_mem_nil _,
    List.forall_mem_nil _, by simp⟩

theorem Flow.push {w : World} {a : Action} {l : LoopId} {task : Task} {after : List Task}
    (idle : w.Idle a l) (same : after = task :: (w.loops l).tasks) (pushes : Pushed w a l task) :
    Flow w a l after := by
  refine ⟨none, [task], (w.loops l).tasks, [], .nothing idle, rfl, by simp [same], ?_,
    List.forall_mem_nil _, ?_⟩
  · intro other member
    rw [List.mem_singleton] at member
    exact member ▸ pushes
  · exact List.countP_le_length

theorem Flow.queue {w : World} {a : Action} {l : LoopId} {task : Task} {after : List Task}
    (idle : w.Idle a l) (same : after = (w.loops l).tasks ++ [task])
    (appends : Appended w a l task) :
    Flow w a l after := by
  refine ⟨none, [], (w.loops l).tasks, [task], .nothing idle, rfl, by simp [same],
    List.forall_mem_nil _, ?_, ?_⟩
  · intro other member
    rw [List.mem_singleton] at member
    exact member ▸ appends
  · exact List.countP_le_length

/-! ### The tasks after each change to a part -/

theorem tasks_setLoop (w : World) (l l' : LoopId) (loop : Loop) :
    ((w.setLoop l loop).loops l').tasks = if l' = l then loop.tasks else (w.loops l').tasks :=
  setLoop_part Loop.tasks w l' l loop

theorem tasks_queueInLoop (w : World) (l l' : LoopId) (tasks : List Task) :
    ((w.queueInLoop l tasks).loops l').tasks =
      (w.loops l').tasks ++ if l' = l then tasks else [] := by
  rw [queueInLoop_loops, Function.update_apply]
  split
  · rename_i same
    rw [same, Loop.tasks_queueInLoop]
  · rw [List.append_nil]

theorem tasks_commit (w : World) (l l' : LoopId) (loop : Loop) (c : ConnId) (outcome : Outcome) :
    ((w.commit l loop c outcome).loops l').tasks =
      (if l' = l then (loop.push outcome.frames).tasks else (w.loops l').tasks) ++
        if l' = outcome.target then outcome.queued else [] := by
  rw [commit, tasks_queueInLoop, tasks_setLoop]
  rfl

/-- `runInLoop` puts the call on the stack or the functor on the queue. -/
theorem Flow.runInLoop {w w' : World} {a : Action} {l l' ioLoop : LoopId} {task : Task}
    (idle : w.Idle a l') (loops : ∀ l, (w'.loops l).tasks = (w.loops l).tasks)
    (pushes : ioLoop = l → l' = l → Pushed w a l' task)
    (appends : l' = ioLoop → Appended w a l' task) :
    Flow w a l' ((w'.runInLoop l ioLoop task).loops l').tasks := by
  rw [World.runInLoop]
  split
  · rename_i inline
    by_cases here : l' = l
    · refine .push idle ?_ (pushes inline here)
      rw [tasks_setLoop, if_pos here, Loop.tasks_push, loops, here]
      rfl
    · exact .same idle (by rw [tasks_setLoop, if_neg here, loops])
  · by_cases there : l' = ioLoop
    · refine .queue idle ?_ (appends there)
      rw [tasks_queueInLoop, if_pos there, loops]
    · exact .same idle (by rw [tasks_queueInLoop, if_neg there, List.append_nil, loops])

/-! ### Calls and functors of a job -/

/-- The calls that a job puts on the stack and the functors that it appends. -/
inductive Calls (w : World) (l : LoopId) : Job → List Task → List Task → Prop where
  | notifications (job : Job) (kinds : List Queued)
      (source : kinds = [] ∨ job.notifies = true) :
      Calls w l job [] (kinds.map (functor job.conn))
  | destruction (c : ConnId)
      (stored : w.server.connections.contains (w.conns c).conn.name = true) :
      Calls w l (.task (.removeConnectionInLoop c)) [] [.connectDestroyed c]
  | removalInline (c : ConnId) (base : l = 0) :
      Calls w l (.closeCallback c) [.removeConnectionInLoop c] []
  | removalQueued (c : ConnId) (other : l ≠ 0) :
      Calls w l (.closeCallback c) [] [.removeConnectionInLoop c]

/-- What a queued functor can be. -/
theorem Calls.of_queued {w : World} {l : LoopId} {job : Job} {pushed queued : List Task}
    (calls : Calls w l job pushed queued) {task : Task} (member : task ∈ queued) :
    (∃ kind, task = functor job.conn kind ∧ job.notifies = true) ∨
      (∃ c, task = .connectDestroyed c ∧ job = .task (.removeConnectionInLoop c) ∧
        w.server.connections.contains (w.conns c).conn.name = true) ∨
      ∃ c, task = .removeConnectionInLoop c ∧ job = .closeCallback c ∧ l ≠ 0 := by
  cases calls with
  | notifications job kinds source =>
      obtain ⟨kind, queued, same⟩ := List.mem_map.mp member
      exact .inl ⟨kind, same.symm, source.resolve_left (List.ne_nil_of_mem queued)⟩
  | destruction c stored =>
      exact .inr (.inl ⟨c, List.mem_singleton.mp member, rfl, stored⟩)
  | removalInline c base => exact absurd member List.not_mem_nil
  | removalQueued c other =>
      exact .inr (.inr ⟨c, List.mem_singleton.mp member, rfl, other⟩)

theorem announced_calls (c : ConnId) (announce : Bool) (rest : List Frame) :
    ((if announce then [Frame.user [c]] else []) ++ rest).filterMap Frame.task? =
      rest.filterMap Frame.task? := by
  cases announce <;> rfl

theorem handleClose_calls (w : World) (c : ConnId) (conn : TcpConnection) :
    (w.handleClose c conn).frames.filterMap Frame.task? = [] ∧
      (w.handleClose c conn).queued = [] :=
  ⟨announced_calls c _ _, rfl⟩

theorem perform_calls (w : World) (l : LoopId) (kernel : Kernel) (job : Job) :
    Calls w l job ((w.perform l kernel job).frames.filterMap Frame.task?)
      (w.perform l kernel job).queued := by
  have quiet : ∀ job, Calls w l job [] [] := fun job => .notifications job [] (.inl rfl)
  cases job with
  | task task =>
      cases task with
      | connectEstablished c =>
          simp only [perform, runTask, connectEstablished]
          split <;> exact quiet _
      | connectDestroyed c =>
          have calls := announced_calls c (w.conns c).conn.connectDestroyed.2
            [.job (.removeChannel c)]
          simp only [perform, runTask, connectDestroyed, calls]
          exact quiet _
      | removeConnectionInLoop c =>
          simp only [perform, runTask, removeConnectionInLoop]
          split
          · rename_i stored
            exact .destruction c stored
          · exact quiet _
      | sendInLoop c data caller => exact .notifications _ _ (.inr rfl)
      | shutdownInLoop c => exact quiet _
      | writeCompleteCallback c =>
          simp only [perform, runTask, notify]
          split <;> exact quiet _
      | highWaterMarkCallback c total =>
          simp only [perform, runTask, notify]
          split <;> exact quiet _
      | user c => exact quiet _
  | callback callback c =>
      cases callback with
      | close =>
          simp only [perform, runCallback, handleClose_calls]
          exact quiet _
      | error => exact quiet _
      | read =>
          simp only [perform, runCallback, handleRead]
          split
          · split <;> exact quiet _
          · simp only [handleClose_calls]
            exact quiet _
          · exact quiet _
      | write => exact .notifications _ _ (.inr rfl)
  | releaseGuard c => exact quiet _
  | closeCallback c =>
      simp only [perform, closeCallback]
      split
      · rename_i base
        exact .removalInline c base
      · rename_i other
        exact .removalQueued c other
  | removeChannel c => exact quiet _

theorem functor_hop (c : ConnId) (kind : Queued) : (functor c kind).hop = false := by
  cases kind <;> rfl

theorem Calls.few {w : World} {l : LoopId} {job : Job} {pushed queued : List Task}
    (calls : Calls w l job pushed queued) : (pushed ++ queued).countP Task.hop ≤ 1 := by
  cases calls with
  | notifications job kinds source =>
      have plain : (kinds.map (functor job.conn)).countP Task.hop = 0 := by
        rw [List.countP_eq_zero]
        intro task member
        obtain ⟨kind, _, rfl⟩ := List.mem_map.mp member
        simp [functor_hop]
      rw [List.nil_append, plain]
      exact Nat.zero_le _
  | destruction c stored => exact List.countP_le_length
  | removalInline c base => exact List.countP_le_length
  | removalQueued c other => exact List.countP_le_length

theorem Calls.pushes {w : World} {l : LoopId} {kernel : Kernel} {job : Job}
    {pushed queued : List Task} (calls : Calls w l job pushed queued)
    (current : w.current l = some job) : ∀ task ∈ pushed, Pushed w (.run l kernel) l task := by
  intro task member
  cases calls with
  | notifications job kinds source => exact absurd member List.not_mem_nil
  | destruction c stored => exact absurd member List.not_mem_nil
  | removalInline c base =>
      rw [List.mem_singleton] at member
      exact member ▸ .removeConnectionInLoop kernel c rfl current
  | removalQueued c other => exact absurd member List.not_mem_nil

/-! ### The inversion -/

/-- Frames of a dispatch call no functor. -/
theorem dispatch_calls (w : World) (c : ConnId) (revents : EpollEvents) :
    (w.dispatch c revents).filterMap Frame.task? = [] := by
  rw [List.filterMap_eq_nil_iff]
  intro frame member
  cases w.dispatch_frames c revents frame member with
  | callback callback => rfl
  | releaseGuard => rfl

/-- Nor do those of the later steps of `~TcpServer`. -/
theorem memberFrames_calls (n : Nat) :
    ((List.range n).flatMap (fun i => [Frame.quitThread (i + 1), .joinThread (i + 1)]) ++
      [Frame.destroyAcceptor]).filterMap Frame.task? = [] := by
  rw [List.filterMap_eq_nil_iff]
  intro frame member
  rcases mem_memberFrames member with ⟨l, rfl⟩ | ⟨l, rfl⟩ | rfl <;> rfl

/-- Replacing a loop by one with the same functors. -/
theorem tasks_setLoop_same (w : World) (l : LoopId) {loop : Loop}
    (same : loop.tasks = (w.loops l).tasks) (l' : LoopId) :
    ((w.setLoop l loop).loops l').tasks = (w.loops l').tasks :=
  setLoop_part_same Loop.tasks w l' l same

theorem Flow.setLoop_same {w : World} {a : Action} {l l' : LoopId} {loop : Loop}
    (idle : w.Idle a l') (same : loop.tasks = (w.loops l).tasks) :
    Flow w a l' ((w.setLoop l loop).loops l').tasks :=
  .same idle (tasks_setLoop_same w l same l')

/-- A frame that is no call goes or is replaced by frames that are none. -/
theorem tasks_pop_of_none {loop : Loop} {frame : Frame} {rest : List Frame}
    (top : loop.stack = frame :: rest) (none : frame.task? = none) :
    loop.pop.tasks = loop.tasks := by
  rw [Loop.tasks_pop top, none]
  rfl

/-- Running a job takes its functor and adds what the job calls. -/
theorem run_flow {w : World} (l' : LoopId) (kernel : Kernel) (l : LoopId) :
    Flow w (.run l' kernel) l ((w.next (.run l' kernel)).loops l).tasks := by
  rw [next]
  split
  · rename_i job loop fetched
    have calls := w.perform_calls l' kernel job
    have current := current_of_fetch fetched
    by_cases here : l = l'
    · subst here
      refine ⟨job.task?, (w.perform l kernel job).frames.filterMap Frame.task?, loop.tasks,
        if l = (w.perform l kernel job).target then (w.perform l kernel job).queued else [],
        ?_, Loop.tasks_fetch fetched, ?_, ?_, ?_, ?_⟩
      · cases job with
        | task task => exact .ran kernel task rfl current
        | callback _ _ | releaseGuard _ | closeCallback _ | removeChannel _ =>
            refine .nothing ?_
            rintro _ _ ⟨⟩ called
            rw [current] at called
            cases called
      · rw [tasks_commit, if_pos rfl, Loop.tasks_push]
      · exact calls.pushes current
      · intro task member
        split at member
        · rename_i target
          exact .byJob l kernel job rfl current task member target
        · exact absurd member List.not_mem_nil
      · refine Nat.le_trans (List.Sublist.countP_le ?_) calls.few
        refine (List.append_sublist_append_left _).mpr ?_
        split
        · exact List.Sublist.refl _
        · exact List.nil_sublist _
    · refine ⟨none, [], (w.loops l).tasks,
        if l = (w.perform l' kernel job).target then (w.perform l' kernel job).queued else [],
        .nothing ?_, rfl, ?_, List.forall_mem_nil _, ?_, ?_⟩
      · rintro _ _ ⟨⟩
        exact absurd rfl here
      · rw [tasks_commit, if_neg here]
        rfl
      · intro task member
        split at member
        · rename_i target
          exact .byJob l' kernel job rfl current task member target
        · exact absurd member List.not_mem_nil
      · refine Nat.le_trans (List.Sublist.countP_le ?_) calls.few
        rw [List.nil_append]
        split
        · exact List.sublist_append_right _ _
        · exact List.nil_sublist _
  · rename_i none
    refine .same ?_ rfl
    rintro kernel' task ⟨⟩ current
    rw [World.current, none] at current
    cases current

theorem next_flow_of_ne {w : World} (placed : w.Placed) {a : Action} (guard : w.Enabled a)
    (other : ∀ l kernel, a ≠ .run l kernel) (l : LoopId) :
    Flow w a l ((w.next a).loops l).tasks := by
  have idle : w.Idle a l := fun kernel task running => absurd running (other l kernel)
  cases a with
  | enterLoop l' => exact .setLoop_same idle rfl
  | poll l' found => exact .setLoop_same idle rfl
  | handleEvent l' named =>
      rw [next]
      split
      · exact .same idle rfl
      · rename_i first rest split
        cases first with
        | acceptor =>
            rw [handleEvent]
            split
            · exact .setLoop_same idle rfl
            · cases named with
              | false => exact .setLoop_same idle rfl
              | true =>
                  have loops : ∀ l, ((w.setLoop l' { w.loops l' with
                      activeChannels := rest }).loops l).tasks = (w.loops l).tasks :=
                    tasks_setLoop_same w l' rfl
                  exact .runInLoop idle loops
                    (fun inline here => .connectEstablished (here ▸ rfl))
                    (fun here => .connectEstablished l' rfl)
        | channel c revents =>
            refine .same idle ?_
            rw [handleEvent, tasks_setLoop]
            split
            · rename_i here
              rw [Loop.tasks_push, dispatch_calls, setLoop_loops, here, Function.update_self]
              rfl
            · rename_i other
              rw [setLoop_loops, Function.update_of_ne other]
  | doPendingFunctors l' =>
      refine .setLoop_same idle ?_
      simp only [Loop.tasks]
      rw [BatchQueue.waiting_swap ((placed.loops l').between (by simp [guard.2.1])).1]
  | endBatch l' => exact .setLoop_same idle rfl
  | destroyLoop l' => exact .setLoop_same idle rfl
  | run l' kernel => exact absurd rfl (other l' kernel)
  | submit l' =>
      rw [next]
      split
      · rename_i task submitted
        obtain ⟨top, elsewhere⟩ := submitted_eq submitted
        obtain ⟨rest, stack⟩ := List.head?_eq_some_iff.mp top
        have before := Loop.tasks_pop stack
        by_cases here : l = l'
        · subst here
          refine ⟨some task, [], (w.loops l).pop.tasks, [], .submitted task rfl submitted, before,
            ?_, List.forall_mem_nil _, List.forall_mem_nil _, by simp⟩
          rw [tasks_queueInLoop, if_neg (Ne.symm elsewhere), tasks_setLoop, if_pos rfl]
          simp
        · by_cases there : l = w.target task
          · refine .queue idle ?_ (.submitted l' task rfl submitted there.symm)
            rw [tasks_queueInLoop, if_pos there, tasks_setLoop, if_neg here]
          · refine .same idle ?_
            rw [tasks_queueInLoop, if_neg there, tasks_setLoop, if_neg here, List.append_nil]
      · exact .same idle rfl
  | userSend l' c data =>
      rw [next]
      split
      · rename_i connected
        by_cases here : l = l'
        · subst here
          refine .push idle ?_ (.sendInLoop c data rfl connected)
          rw [tasks_setLoop, if_pos rfl, Loop.tasks_push]
          rfl
        · exact .same idle (by rw [tasks_setLoop, if_neg here])
      · exact .same idle rfl
  | userShutdown l' c =>
      simp only [next]
      split
      · rename_i connected
        by_cases here : l = l'
        · subst here
          refine .push idle ?_ (.shutdownInLoop c rfl
            (by simpa [TcpConnection.exchangeDisconnecting] using connected))
          rw [tasks_setLoop, if_pos rfl, Loop.tasks_push]
          rfl
        · exact .same idle (by rw [tasks_setLoop, if_neg here]; rfl)
      · exact .same idle rfl
  | userTake l' t c =>
      obtain ⟨held, rest, top⟩ := inUserCode_eq guard.2.2.1
      refine .setLoop_same idle ?_
      rw [Loop.tasks_push, tasks_pop_of_none top rfl]
      rfl
  | userReturn l' =>
      obtain ⟨held, rest, top⟩ := inUserCode_eq guard.2
      exact .setLoop_same idle (tasks_pop_of_none top rfl)
  | queueInLoop t =>
      rw [next]
      split
      · rename_i task calling
        by_cases there : l = w.target task
        · refine .queue idle ?_ (.byThread t task rfl calling there.symm)
          rw [tasks_queueInLoop, if_pos there]
          rfl
        · refine .same idle ?_
          rw [tasks_queueInLoop, if_neg there, List.append_nil]
          rfl
      · exact .same idle rfl
  | send t c data =>
      rw [next]
      split <;> exact .same idle rfl
  | shutdown t c =>
      simp only [next]
      split <;> exact .same idle rfl
  | quit l' => exact .setLoop_same idle rfl
  | destroyServer => exact .same idle (tasks_setLoop_same _ 0 (Loop.tasks_push _ _) l)
  | destroyConnection c =>
      exact .runInLoop idle (fun _ => rfl)
        (fun inline here => .connectDestroyed c rfl here inline)
        (fun here => .connectDestroyed c rfl here.symm)
  | destroyMember =>
      rw [next, destroyMember]
      split
      · rename_i rest top
        refine .setLoop_same idle ?_
        rw [Loop.tasks_push, tasks_pop_of_none top rfl, memberFrames_calls, List.nil_append]
      · rename_i l' rest top
        have popped := tasks_setLoop_same w 0 (tasks_pop_of_none top rfl)
        refine .same idle
          (.trans (tasks_setLoop_same (w.setLoop 0 (w.loops 0).pop) l' ?_ l) (popped l))
        rfl
      · rename_i l' rest top
        exact .setLoop_same idle (tasks_pop_of_none top rfl)
      · rename_i rest top
        exact .same idle (tasks_setLoop_same _ 0 (tasks_pop_of_none top rfl) l)
      · exact .same idle rfl
  | userSetHighWaterMarkCallback l' c mark | userRetrieve l' c len | userGive l' t c
  | copy t other c | drop t c | queueUser t c => exact .same idle rfl

theorem next_flow {w : World} (placed : w.Placed) {a : Action} (guard : w.Enabled a)
    (l : LoopId) : Flow w a l ((w.next a).loops l).tasks := by
  by_cases running : ∃ l' kernel, a = .run l' kernel
  · obtain ⟨l', kernel, rfl⟩ := running
    exact run_flow l' kernel l
  · exact next_flow_of_ne placed guard (fun l' kernel same => running ⟨l', kernel, same⟩) l

end World

end EduMuduo

/-
Module: EduMuduo.Proofs.QueueFlow
Layer: Proofs
Purpose: What one step of the server can do to the task queue of a loop (`QueueChange`), and to a
  thread of the user (`ThreadChange`).  With the stack these are all the places where a functor can
  be.
Imports: EduMuduo.Proofs.StackFlow
Trusted boundary: none
Main exports: World.QueueBase, World.QueueChange, World.next_queue, World.CallsNext,
  World.ThreadChange, World.next_thread, World.next_calling, World.Waits, World.Waits.next
-/
import EduMuduo.Proofs.StackFlow

namespace EduMuduo

open Library

namespace World

/-! ### The queue -/

/-- What action `a` makes of the queue of loop `l` before anything is pushed. -/
inductive QueueBase (w : World) (a : Action) (l : LoopId) : BatchQueue Task → Prop where
  | same (idle : ∀ kernel, a = .run l kernel → (w.loops l).stack ≠ []) :
      QueueBase w a l (w.loops l).functors
  | swapped (running : a = .doPendingFunctors l)
      (done : (w.loops l).functors.batch = [] ∧ (w.loops l).functors.ran = []) :
      QueueBase w a l (w.loops l).functors.swap
  | released (running : a = .endBatch l) : QueueBase w a l (w.loops l).functors.release
  | advanced (kernel : Kernel) (task : Task) (rest : List Task) (running : a = .run l kernel)
      (bottom : (w.loops l).stack = []) (next : (w.loops l).functors.batch = task :: rest) :
      QueueBase w a l (w.loops l).functors.advance

/-- Everything that action `a` can make of the queue of loop `l`. -/
inductive QueueChange (w : World) (a : Action) (l : LoopId) : BatchQueue Task → Prop where
  | intro (base : BatchQueue Task) (queued : List Task) (source : QueueBase w a l base)
      (appends : ∀ task ∈ queued, Appended w a l task) : QueueChange w a l (base.pushAll queued)

theorem QueueChange.of_base {w : World} {a : Action} {l : LoopId} {base : BatchQueue Task}
    (source : QueueBase w a l base) : QueueChange w a l base := by
  have nothing : base.pushAll [] = base := by simp [BatchQueue.pushAll]
  exact nothing ▸ .intro base [] source (List.forall_mem_nil _)

theorem QueueBase.of_eq {w : World} {a : Action} {l : LoopId} {base : BatchQueue Task}
    (idle : ∀ kernel, a ≠ .run l kernel) (same : base = (w.loops l).functors) :
    QueueBase w a l base :=
  same ▸ .same fun kernel running => absurd running (idle kernel)

/-- The queue of a loop when another one, or itself, is replaced. -/
theorem functors_setLoop (w : World) (l l' : LoopId) (loop : Loop) :
    ((w.setLoop l' loop).loops l).functors =
      if l = l' then loop.functors else (w.loops l).functors :=
  setLoop_part Loop.functors w l l' loop

theorem functors_setLoop_same (w : World) (l l' : LoopId) {loop : Loop}
    (same : loop.functors = (w.loops l').functors) :
    ((w.setLoop l' loop).loops l).functors = (w.loops l).functors :=
  setLoop_part_same Loop.functors w l l' same

theorem functors_queueInLoop (w : World) (l l' : LoopId) (tasks : List Task) :
    ((w.queueInLoop l' tasks).loops l).functors =
      (w.loops l).functors.pushAll (if l = l' then tasks else []) := by
  rw [queueInLoop, functors_setLoop]
  split
  · rename_i here
    rw [here]
    rfl
  · simp [BatchQueue.pushAll]

/-- Queueing a functor behind a queue that is as before. -/
theorem QueueChange.queueInLoop {w w' : World} {a : Action} {l l' : LoopId} {task : Task}
    (idle : ∀ kernel, a ≠ .run l kernel)
    (loops : ∀ l, (w'.loops l).functors = (w.loops l).functors)
    (appends : l' = l → Appended w a l task) :
    QueueChange w a l ((w'.queueInLoop l' [task]).loops l).functors := by
  rw [functors_queueInLoop]
  refine .intro _ _ (.of_eq idle (loops l)) fun other member => ?_
  split at member
  · rename_i here
    exact List.mem_singleton.mp member ▸ appends here.symm
  · exact absurd member List.not_mem_nil

theorem QueueChange.runInLoop {w w' : World} {a : Action} {l l' ioLoop : LoopId} {task : Task}
    (idle : ∀ kernel, a ≠ .run l kernel)
    (loops : ∀ l, (w'.loops l).functors = (w.loops l).functors)
    (appends : ioLoop = l → Appended w a l task) :
    QueueChange w a l ((w'.runInLoop l' ioLoop task).loops l).functors := by
  rw [World.runInLoop]
  split
  · exact .of_base (.of_eq idle ((functors_setLoop_same _ _ _ (by rfl)).trans (loops l)))
  · exact .queueInLoop idle loops appends

/-- The queue that a job is fetched from. -/
theorem QueueBase.fetch {w : World} {l : LoopId} {kernel : Kernel} {job : Job} {loop : Loop}
    (fetched : (w.loops l).fetch = some (job, loop)) :
    QueueBase w (.run l kernel) l loop.functors := by
  cases Loop.fetched fetched with
  | called _ rest top => exact .same fun _ _ => by simp [top]
  | functor task rest bottom draining next =>
      exact .advanced kernel task rest rfl bottom next

theorem run_queue {w : World} {l' : LoopId} {kernel : Kernel} {job : Job} {loop : Loop}
    (fetched : (w.loops l').fetch = some (job, loop)) (l : LoopId) :
    QueueChange w (.run l' kernel) l ((w.next (.run l' kernel)).loops l).functors := by
  have current := current_of_fetch fetched
  have base : QueueBase w (.run l' kernel) l
      (if l = l' then loop.functors else (w.loops l).functors) := by
    split
    · rename_i here
      subst here
      exact .fetch fetched
    · rename_i other
      refine .of_eq ?_ rfl
      rintro _ ⟨⟩
      exact other rfl
  simp only [next, fetched]
  rw [commit, functors_queueInLoop, functors_setLoop]
  refine .intro _ _ base fun task member => ?_
  split at member
  · rename_i target
    exact .byJob l' kernel job rfl current task member target
  · exact absurd member List.not_mem_nil

theorem next_queue {w : World} (placed : w.Placed) {a : Action} (guard : w.Enabled a)
    (l : LoopId) : QueueChange w a l ((w.next a).loops l).functors := by
  cases a with
  | run l' kernel =>
      obtain ⟨job, loop, fetched, _⟩ := enabled_run guard
      exact run_queue fetched l
  | handleEvent l' named =>
      rw [next]
      split
      · exact .of_base (.of_eq (ne_run rfl) rfl)
      · rename_i first rest split
        have popped : ∀ l, ((w.setLoop l'
            { w.loops l' with activeChannels := rest }).loops l).functors =
              (w.loops l).functors := fun l => w.functors_setLoop_same l l' rfl
        cases first with
        | acceptor =>
            rw [handleEvent]
            split
            · exact .of_base (.of_eq (ne_run rfl) (popped l))
            · cases named with
              | false => exact .of_base (.of_eq (ne_run rfl) (popped l))
              | true => exact .runInLoop (ne_run rfl) popped fun _ => .connectEstablished l' rfl
        | channel c revents =>
            rw [handleEvent]
            exact .of_base (.of_eq (ne_run rfl)
              ((functors_setLoop_same _ _ _ (by rfl)).trans (popped l)))
  | doPendingFunctors l' =>
      refine .of_base ?_
      rw [next, functors_setLoop]
      split
      · rename_i here
        subst here
        exact .swapped rfl ((placed.loops l).between (by simp [guard.2.1]))
      · exact .of_eq (ne_run rfl) rfl
  | endBatch l' =>
      refine .of_base ?_
      rw [next, functors_setLoop]
      split
      · rename_i here
        subst here
        exact .released rfl
      · exact .of_eq (ne_run rfl) rfl
  | submit l' =>
      rw [next]
      split
      · rename_i task submitted
        exact .queueInLoop (ne_run rfl) (fun l => functors_setLoop_same _ _ _ (by rfl))
          fun target => .submitted l' task rfl submitted target
      · exact .of_base (.of_eq (ne_run rfl) rfl)
  | queueInLoop t =>
      rw [next]
      split
      · rename_i task calling
        exact .queueInLoop (ne_run rfl) (fun _ => rfl) fun target => .byThread t task rfl calling target
      · exact .of_base (.of_eq (ne_run rfl) rfl)
  | destroyConnection c =>
      exact .runInLoop (ne_run rfl) (fun _ => rfl) fun here => .connectDestroyed c rfl here
  | destroyMember =>
      refine .of_base (.of_eq (ne_run rfl) ?_)
      rw [next, destroyMember]
      split
      · exact functors_setLoop_same _ _ _ rfl
      · exact (functors_setLoop_same _ _ _ (by rfl)).trans (functors_setLoop_same _ _ _ (by rfl))
      · exact functors_setLoop_same _ _ _ rfl
      · exact functors_setLoop_same _ _ _ rfl
      · rfl
  | userSend l' c data =>
      refine .of_base (.of_eq (ne_run rfl) ?_)
      rw [next]
      split
      · exact functors_setLoop_same _ _ _ rfl
      · rfl
  | userShutdown l' c =>
      refine .of_base (.of_eq (ne_run rfl) ?_)
      simp only [next]
      split
      · exact functors_setLoop_same _ _ _ rfl
      · rfl
  | send t c data =>
      refine .of_base (.of_eq (ne_run rfl) ?_)
      rw [next]
      split <;> rfl
  | shutdown t c =>
      refine .of_base (.of_eq (ne_run rfl) ?_)
      simp only [next]
      split <;> rfl
  | destroyServer => exact .of_base (.of_eq (ne_run rfl) (functors_setLoop_same _ _ _ (by rfl)))
  | enterLoop l' | poll l' active | destroyLoop l' | userTake l' t c | userReturn l' | quit l' =>
      exact .of_base (.of_eq (ne_run rfl) (functors_setLoop_same _ _ _ (by rfl)))
  | userSetHighWaterMarkCallback l' c mark | userRetrieve l' c len | userGive l' t c
  | copy t other c | drop t c | queueUser t c => exact .of_base (.of_eq (ne_run rfl) rfl)

/-- A functor that waits was waiting before, or it was queued in this step. -/
theorem mem_waiting_next {w : World} (placed : w.Placed) {a : Action} (guard : w.Enabled a)
    {l : LoopId} {task : Task} (member : task ∈ ((w.next a).loops l).functors.waiting) :
    task ∈ (w.loops l).functors.waiting ∨ Appended w a l task := by
  have change := next_queue placed guard l
  generalize ((w.next a).loops l).functors = functors at change member
  cases change with
  | intro base queued source appends =>
      rw [BatchQueue.waiting_pushAll] at member
      rcases List.mem_append.mp member with old | new
      · refine .inl ?_
        cases source with
        | same idle => exact old
        | swapped running done => rwa [BatchQueue.waiting_swap done.1] at old
        | released running => exact old
        | advanced kernel task' rest running bottom next =>
            rw [BatchQueue.waiting_advance next]
            exact List.mem_cons_of_mem _ old
      · exact .inr (appends task new)

/-- Loop `l` calls the next functor of its batch, and this is `task`. -/
structure CallsNext (w : World) (a : Action) (l : LoopId) (task : Task) : Prop where
  runs : ∃ kernel, a = .run l kernel
  bottom : (w.loops l).stack = []
  next : (w.loops l).functors.batch.head? = some task

/-- A functor waits until it is called. -/
theorem waiting_next {w : World} (placed : w.Placed) {a : Action} (guard : w.Enabled a)
    {l : LoopId} {task : Task} (waits : task ∈ (w.loops l).functors.waiting)
    (uncalled : ¬ w.CallsNext a l task) : task ∈ ((w.next a).loops l).functors.waiting := by
  have change := next_queue placed guard l
  generalize ((w.next a).loops l).functors = queue at change ⊢
  cases change with
  | intro base queued source appends =>
      rw [BatchQueue.waiting_pushAll]
      apply List.mem_append_left
      cases source with
      | same idle => exact waits
      | released running => exact waits
      | swapped running done =>
          rw [BatchQueue.waiting_swap done.1]
          exact waits
      | advanced kernel first rest running bottom next =>
          rw [BatchQueue.waiting_advance next] at waits
          rcases List.mem_cons.mp waits with same | later
          · subst same
            exact absurd ⟨⟨kernel, running⟩, bottom, by rw [next]; rfl⟩ uncalled
          · exact later

/-! ### The threads of the user -/

/-- How a thread of the user comes to queue a functor. -/
inductive Called (w : World) (a : Action) (t : ThreadId) : Task → Prop where
  | sendInLoop (c : ConnId) (data : List Byte) (running : a = .send t c data)
      (connected : (w.conns c).conn.connected = true) :
      Called w a t (.sendInLoop c data (.thread t))
  | shutdownInLoop (c : ConnId) (running : a = .shutdown t c)
      (connected : (w.conns c).conn.state = .connected) : Called w a t (.shutdownInLoop c)
  | user (c : ConnId) (running : a = .queueUser t c) : Called w a t (.user c)

/-- Everything that action `a` can make of a thread of the user. -/
inductive ThreadChange (w : World) (a : Action) (t : ThreadId) : UserThread → Prop where
  | same (idle : a ≠ .queueInLoop t ∨ (w.threads t).calling = none) :
      ThreadChange w a t (w.threads t)
  | gained (c : ConnId) (source : (∃ l, a = .userGive l t c) ∨ ∃ t', a = .copy t' t c) :
      ThreadChange w a t { w.threads t with copies := c :: (w.threads t).copies }
  | dropped (c : ConnId) (running : a = .drop t c) :
      ThreadChange w a t { w.threads t with copies := (w.threads t).copies.erase c }
  | called (task : Task) (free : (w.threads t).calling = none) (called : Called w a t task) :
      ThreadChange w a t { w.threads t with calling := some task }
  | queued (task : Task) (running : a = .queueInLoop t)
      (calling : (w.threads t).calling = some task) :
      ThreadChange w a t { w.threads t with calling := none }

/-- The thread whose `queueInLoop` an action finishes. -/
def queues? : Action → Option ThreadId
  | .queueInLoop t => some t
  | _ => none

theorem ne_queueInLoop {a : Action} (idle : queues? a = none) (t : ThreadId) :
    a ≠ .queueInLoop t := by
  rintro rfl
  cases idle

theorem ThreadChange.of_eq {w : World} {a : Action} {t : ThreadId} {thread : UserThread}
    (idle : queues? a = none) (same : thread = w.threads t) : ThreadChange w a t thread :=
  same ▸ .same (.inl (ne_queueInLoop idle t))

/-- One thread is replaced, and the others stay. -/
theorem ThreadChange.setThread {w w' : World} {a : Action} {t t' : ThreadId} {thread : UserThread}
    (threads : w'.threads = w.threads) (idle : t ≠ t' → a ≠ .queueInLoop t)
    (here : t = t' → ThreadChange w a t thread) :
    ThreadChange w a t ((w'.setThread t' thread).threads t) := by
  rw [setThread_threads, Function.update_apply, threads]
  split
  · rename_i same
    exact here same
  · rename_i other
    exact .same (.inl (idle other))

theorem runInLoop_threads (w : World) (l ioLoop : LoopId) (task : Task) :
    (w.runInLoop l ioLoop task).threads = w.threads := by
  rw [runInLoop]
  split <;> rfl

theorem newConnection_threads (w : World) (l : LoopId) (named : Bool) :
    (w.newConnection l named).threads = w.threads := by
  cases named with
  | false => rfl
  | true =>
      simp only [newConnection, if_true]
      exact runInLoop_threads _ _ _ _

theorem next_thread {w : World} {a : Action} (guard : w.Enabled a) (t : ThreadId) :
    ThreadChange w a t ((w.next a).threads t) := by
  cases a with
  | send t' c data =>
      rw [next]
      split
      · rename_i connected
        refine .setThread rfl (fun _ => ne_queueInLoop rfl t) ?_
        rintro rfl
        exact .called _ guard.2.1 (.sendInLoop c data rfl connected)
      · exact .of_eq rfl rfl
  | shutdown t' c =>
      simp only [next]
      split
      · rename_i connected
        refine .setThread rfl (fun _ => ne_queueInLoop rfl t) ?_
        rintro rfl
        exact .called _ guard.2.1 (.shutdownInLoop c rfl
          (by simpa [TcpConnection.exchangeDisconnecting] using connected))
      · exact .of_eq rfl rfl
  | queueUser t' c =>
      refine .setThread rfl (fun _ => ne_queueInLoop rfl t) ?_
      rintro rfl
      exact .called _ guard.2.1 (.user c rfl)
  | queueInLoop t' =>
      rw [next]
      split
      · rename_i task calling
        refine .setThread rfl ?_ ?_
        · rintro other ⟨⟩
          exact other rfl
        · rintro rfl
          exact .queued task rfl calling
      · rename_i none
        refine .same ?_
        by_cases here : t' = t
        · exact .inr (here ▸ none)
        · refine .inl ?_
          rintro ⟨⟩
          exact here rfl
  | userGive l t' c =>
      refine .setThread rfl (fun _ => ne_queueInLoop rfl t) ?_
      rintro rfl
      exact .gained c (.inl ⟨l, rfl⟩)
  | copy t' other c =>
      refine .setThread rfl (fun _ => ne_queueInLoop rfl t) ?_
      rintro rfl
      exact .gained c (.inr ⟨t', rfl⟩)
  | drop t' c =>
      refine .setThread rfl (fun _ => ne_queueInLoop rfl t) ?_
      rintro rfl
      exact .dropped c rfl
  | handleEvent l named =>
      refine .of_eq rfl ?_
      rw [next]
      split
      · rfl
      · rename_i first rest split
        cases first with
        | channel c revents => rfl
        | acceptor =>
            rw [handleEvent]
            split
            · rfl
            · rw [newConnection_threads]
              rfl
  | run l kernel | submit l | userSend l c data =>
      refine .of_eq rfl ?_
      rw [next]
      split <;> rfl
  | userShutdown l c =>
      refine .of_eq rfl ?_
      simp only [next]
      split <;> rfl
  | destroyConnection c =>
      refine .of_eq rfl ?_
      rw [next, runInLoop_threads]
      rfl
  | destroyMember =>
      refine .of_eq rfl ?_
      rw [next, destroyMember]
      split <;> rfl
  | enterLoop l | poll l active | doPendingFunctors l | endBatch l | destroyLoop l
  | userSetHighWaterMarkCallback l c mark | userRetrieve l c len | userTake l t' c | userReturn l
  | quit l | destroyServer =>
      exact .of_eq rfl rfl

/-- The functor that a thread is queueing was there before, and the thread is not at the end of
its call, or it has begun the call in this step. -/
theorem next_calling {w : World} {a : Action} (guard : w.Enabled a) {t : ThreadId} {task : Task}
    (calling : ((w.next a).threads t).calling = some task) :
    (w.threads t).calling = some task ∧ a ≠ .queueInLoop t ∨ Called w a t task := by
  have change := next_thread guard t
  generalize (w.next a).threads t = thread at change calling
  cases change with
  | same idle =>
      refine .inl ⟨calling, idle.resolve_right fun none => ?_⟩
      rw [none] at calling
      cases calling
  | gained c source =>
      refine .inl ⟨calling, ?_⟩
      rcases source with ⟨l, rfl⟩ | ⟨t', rfl⟩ <;> exact ne_queueInLoop rfl t
  | dropped c running => exact .inl ⟨calling, running ▸ ne_queueInLoop rfl t⟩
  | called other free called =>
      cases calling
      exact .inr called
  | queued other running calling' => cases calling

/-! ### Waiting functors -/

/-- The functor is a call on some stack, or in some queue, or a thread is queueing it. -/
def Waits (w : World) (task : Task) : Prop :=
  (∃ l, task ∈ (w.loops l).tasks) ∨ ∃ t, (w.threads t).calling = some task

theorem Waits.queueInLoop (w : World) (l : LoopId) (task : Task) :
    (w.queueInLoop l [task]).Waits task := by
  refine .inl ⟨l, ?_⟩
  rw [tasks_queueInLoop, if_pos rfl]
  exact List.mem_append_right _ (List.mem_singleton_self _)

theorem runInLoop_waits (w : World) (l ioLoop : LoopId) (task : Task) :
    (w.runInLoop l ioLoop task).Waits task := by
  rw [runInLoop]
  split
  · refine .inl ⟨l, ?_⟩
    rw [tasks_setLoop, if_pos rfl, Loop.tasks_push]
    exact List.mem_append_left _ (List.mem_singleton_self _)
  · exact .queueInLoop _ _ _

/-- What a job queues waits. -/
theorem run_waits {w : World} {l : LoopId} {kernel : Kernel} {job : Job} {loop : Loop}
    (fetched : (w.loops l).fetch = some (job, loop)) {task : Task}
    (queued : task ∈ (w.perform l kernel job).queued) :
    (w.next (.run l kernel)).Waits task := by
  refine .inl ⟨(w.perform l kernel job).target, ?_⟩
  simp only [next, fetched]
  rw [tasks_commit, if_pos rfl]
  exact List.mem_append_right _ queued

/-- A functor that waits is run, or it goes on waiting. -/
theorem Waits.next {w : World} (placed : w.Placed) {a : Action} (guard : w.Enabled a)
    {task : Task} (waits : w.Waits task) :
    (∃ l kernel, a = .run l kernel ∧ w.current l = some (.task task)) ∨ (w.next a).Waits task := by
  rcases waits with ⟨l, member⟩ | ⟨t, calling⟩
  · obtain ⟨taken, pushed, rest, queued, takes, before, same, pushes, appends, few⟩ :=
      next_flow placed guard l
    rw [before] at member
    rcases List.mem_append.mp member with first | later
    · cases takes with
      | nothing idle => exact absurd first List.not_mem_nil
      | ran kernel other running current =>
          obtain rfl := List.mem_singleton.mp first
          exact .inl ⟨l, kernel, running, current⟩
      | submitted other running top =>
          obtain rfl := List.mem_singleton.mp first
          subst running
          simp only [World.next, top]
          exact .inr (.queueInLoop _ _ task)
    · refine .inr (.inl ⟨l, ?_⟩)
      rw [same]
      exact List.mem_append_left _ (List.mem_append_right _ later)
  · have change := next_thread guard t
    generalize after : (w.next a).threads t = thread at change
    cases change with
    | same idle => exact .inr (.inr ⟨t, by rw [after]; exact calling⟩)
    | gained c source => exact .inr (.inr ⟨t, by rw [after]; exact calling⟩)
    | dropped c running => exact .inr (.inr ⟨t, by rw [after]; exact calling⟩)
    | called other free called =>
        rw [free] at calling
        cases calling
    | queued other running calling' =>
        rw [calling] at calling'
        cases calling'
        subst running
        simp only [World.next, calling]
        exact .inr (.queueInLoop _ _ task)

/-- What waits behind a step waited before, or the step has put it there. -/
theorem Waits.of_next {w : World} (placed : w.Placed) {a : Action} (guard : w.Enabled a)
    {task : Task} (waits : (w.next a).Waits task) :
    w.Waits task ∨ (∃ l, Pushed w a l task) ∨ (∃ l, Appended w a l task) ∨
      ∃ t, Called w a t task := by
  rcases waits with ⟨l, member⟩ | ⟨t, calling⟩
  · obtain ⟨taken, pushed, rest, queued, takes, before, same, pushes, appends, few⟩ :=
      next_flow placed guard l
    rw [same, List.mem_append, List.mem_append] at member
    rcases member with (new | old) | new
    · exact .inr (.inl ⟨l, pushes _ new⟩)
    · exact .inl (.inl ⟨l, by rw [before]; exact List.mem_append_right _ old⟩)
    · exact .inr (.inr (.inl ⟨l, appends _ new⟩))
  · rcases next_calling guard calling with ⟨old, _⟩ | called
    · exact .inl (.inr ⟨t, old⟩)
    · exact .inr (.inr (.inr ⟨t, called⟩))

end World

end EduMuduo

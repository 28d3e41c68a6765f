/-
Module: EduMuduo.Proofs.SendOrder
Layer: Proofs
Purpose: Messages of one sender reach the connection's loop exactly once and in order.  A message
  is first with its sender, in the hands of a thread or on the stack of another loop, and then with
  the connection's loop, on its stack or in its queue.  Each of the two places is a pipe; in series
  they give the law over all interleavings: what has been executed followed by what is in flight is
  what `send` has accepted.
Imports: EduMuduo.Library.Conservation, EduMuduo.Proofs.CallOrder
Trusted boundary: none
Main exports: Task.sendTo, messagesOf, World.sent, World.executed, World.inFlight, sendPipe,
  messages_executed_in_order
-/
import EduMuduo.Library.Conservation
import EduMuduo.Proofs.CallOrder

namespace EduMuduo

open Library

/-- The sender and the message, if the functor is a `sendInLoop` of connection `c`. -/
def Task.sendTo (c : ConnId) : Task → Option (Caller × List Byte)
  | .sendInLoop c' data caller => if c' = c then some (caller, data) else none
  | _ => none

/-- The same for a job. -/
def Job.sendTo (c : ConnId) : Job → List (Caller × List Byte)
  | .task functor => (functor.sendTo c).toList
  | .callback _ _ | .releaseGuard _ | .closeCallback _ | .removeChannel _ => []

/-- A job of another connection sends nothing to this one. -/
theorem Job.sendTo_other {job : Job} {c : ConnId} (other : job.conn ≠ c) : job.sendTo c = [] := by
  cases job with
  | task functor =>
      cases functor with
      | sendInLoop c' data caller =>
          have foreign : (Task.sendInLoop c' data caller).sendTo c = none := if_neg other
          exact congrArg Option.toList foreign
      | connectEstablished c' | connectDestroyed c' | removeConnectionInLoop c'
      | shutdownInLoop c' | writeCompleteCallback c' | highWaterMarkCallback c' total
      | user c' => rfl
  | callback callback c' | releaseGuard c' | closeCallback c' | removeChannel c' => rfl

/-- The messages of sender `T`. -/
def messagesOf (T : Caller) (messages : List (Caller × List Byte)) : List (List Byte) :=
  (messages.filter fun message => message.1 == T).map Prod.snd

@[simp] theorem messagesOf_nil (T : Caller) : messagesOf T [] = [] := rfl

@[simp] theorem messagesOf_append (T : Caller) (first second : List (Caller × List Byte)) :
    messagesOf T (first ++ second) = messagesOf T first ++ messagesOf T second := by
  simp [messagesOf]

/-- The messages of sender `T` to connection `c` among some functors. -/
def messagesIn (T : Caller) (c : ConnId) (tasks : List Task) : List (List Byte) :=
  messagesOf T (tasks.filterMap (Task.sendTo c))

@[simp] theorem messagesIn_nil (T : Caller) (c : ConnId) : messagesIn T c [] = [] := rfl

@[simp] theorem messagesIn_append (T : Caller) (c : ConnId) (first second : List Task) :
    messagesIn T c (first ++ second) = messagesIn T c first ++ messagesIn T c second := by
  simp [messagesIn]

/-- Functors among which there is no message of `T` to `c`. -/
theorem messagesIn_eq_nil {T : Caller} {c : ConnId} {tasks : List Task}
    (others : ∀ data, .sendInLoop c data T ∉ tasks) : messagesIn T c tasks = [] := by
  rw [messagesIn, messagesOf, List.map_eq_nil_iff, List.filter_eq_nil_iff]
  rintro ⟨caller, data⟩ member
  obtain ⟨task, among, sends⟩ := List.mem_filterMap.mp member
  unfold Task.sendTo at sends
  split at sends
  · split at sends
    · rename_i same
      subst same
      cases sends
      intro mine
      have sender : caller = T := by simpa using mine
      exact others data (sender ▸ among)
    · cases sends
  · cases sends

theorem messagesIn_send (c : ConnId) (data : List Byte) (T : Caller) :
    messagesIn T c [.sendInLoop c data T] = [data] := by
  simp [messagesIn, messagesOf, Task.sendTo]

namespace World

/-! ### Where the messages of one sender are -/

/-- The message that `send` accepts from `T` for connection `c` in this action. -/
def sent (T : Caller) (c : ConnId) (w : World) : Action → List (List Byte)
  | .userSend l c' data =>
      if c' = c ∧ T = .loop l ∧ (w.conns c').conn.connected = true then [data] else []
  | .send t c' data =>
      if c' = c ∧ T = .thread t ∧ (w.conns c').conn.connected = true then [data] else []
  | _ => []

/-- The `sendInLoop` of connection `c` that this action runs, with its sender. -/
def executed (c : ConnId) (w : World) : Action → List (Caller × List Byte)
  | .run l _ =>
      match w.current l with
      | some job => job.sendTo c
      | none => []
  | _ => []

/-- The messages that are still with `T`: on the stack of its loop, unless that is the connection's
own, or in the hands of its thread. -/
def withSender (T : Caller) (c : ConnId) (w : World) : List (List Byte) :=
  match T with
  | .loop l => if l = (w.conns c).conn.loop then [] else messagesIn T c (w.loops l).tasks
  | .thread t => messagesIn T c (w.threads t).calling.toList

/-- The messages that the connection's loop has still to run. -/
def withLoop (T : Caller) (c : ConnId) (w : World) : List (List Byte) :=
  messagesIn T c (w.loops (w.conns c).conn.loop).tasks

/-- Accepted and not yet executed, in the order in which they will be. -/
def inFlight (T : Caller) (c : ConnId) (w : World) : List (List Byte) :=
  withLoop T c w ++ withSender T c w

/-- The message that goes from its sender to the connection's loop in this action. -/
def handedOver (T : Caller) (c : ConnId) (w : World) : Action → List (List Byte)
  | .userSend l c' data =>
      if l = (w.conns c).conn.loop then sent T c w (.userSend l c' data) else []
  | .submit l => messagesIn T c (w.submitted l).toList
  | .queueInLoop t => messagesIn T c (w.threads t).calling.toList
  | _ => []

/-- A functor that belongs on another loop is no message to `c`. -/
theorem messagesIn_elsewhere {w : World} {c : ConnId} {task : Task} (T : Caller)
    (elsewhere : w.target task ≠ (w.conns c).conn.loop) : messagesIn T c [task] = [] := by
  apply messagesIn_eq_nil
  intro data member
  rw [List.mem_singleton] at member
  exact elsewhere (member ▸ rfl)

/-! ### Actions that move no message -/

/-- The actions that bring a message from its sender to a loop. -/
def moves : Action → Bool
  | .userSend _ _ _ | .submit _ | .queueInLoop _ => true
  | _ => false

/-- The actions that begin a call of `queueInLoop` on a thread of the user. -/
def calls : Action → Bool
  | .send _ _ _ | .shutdown _ _ | .queueUser _ _ => true
  | _ => false

/-- Any other action leaves the messages of a loop alone, but for one that it takes. -/
theorem messages_next {w : World} (placed : w.Placed) {a : Action} (guard : w.Enabled a)
    (still : moves a = false) (T : Caller) (c : ConnId) (l : LoopId) :
    ∃ taken, Taken w a l taken ∧
      messagesIn T c (w.loops l).tasks =
        messagesIn T c taken.toList ++ messagesIn T c ((w.next a).loops l).tasks := by
  obtain ⟨taken, pushed, rest, queued, takes, before, same, pushes, appends, few⟩ :=
    next_flow placed guard l
  refine ⟨taken, takes, ?_⟩
  have called : messagesIn T c pushed = [] := by
    apply messagesIn_eq_nil
    intro data member
    cases pushes _ member with
    | sendInLoop _ _ running connected =>
        subst running
        cases still
  have appended : messagesIn T c queued = [] := by
    apply messagesIn_eq_nil
    intro data member
    rcases (appends _ member).call rfl with ⟨l', _, running, _⟩ | ⟨t, running, _⟩ <;>
      subst running <;> cases still
  rw [before, same, messagesIn_append, messagesIn_append, messagesIn_append, called, appended,
    List.nil_append, List.append_nil]

/-- A `sendInLoop` of `c` is run on the loop of `c` only. -/
theorem executed_elsewhere {w : World} {l : LoopId} {kernel : Kernel}
    (guard : w.Enabled (.run l kernel)) {c : ConnId} (other : l ≠ (w.conns c).conn.loop) :
    executed c w (.run l kernel) = [] := by
  obtain ⟨_, job, current, here, _⟩ := guard
  rw [Option.mem_def] at current
  simp only [executed, current]
  cases job with
  | task task =>
      cases task with
      | sendInLoop c' data caller =>
          apply Job.sendTo_other
          rintro rfl
          exact other here.symm
      | connectEstablished c' | connectDestroyed c' | removeConnectionInLoop c'
      | shutdownInLoop c' | writeCompleteCallback c' | highWaterMarkCallback c' total
      | user c' => rfl
  | callback callback c' | releaseGuard c' | closeCallback c' | removeChannel c' => rfl

/-! ### A connection that is not up has no messages -/

theorem up_of_message {w : World} (placed : w.Placed) {c : ConnId} {data : List Byte} {T : Caller}
    (waits : w.Waits (.sendInLoop c data T)) : w.Up c := by
  rcases waits with ⟨l, member⟩ | ⟨t, calling⟩
  · exact (placed.task_ok member).1.2.1 rfl
  · exact ((placed.threads t).calling _ calling).2

theorem up_of_message_next {w : World} (placed : w.Placed) {a : Action} (guard : w.Enabled a)
    {c : ConnId} {data : List Byte} {T : Caller}
    (waits : (w.next a).Waits (.sendInLoop c data T)) : w.Up c := by
  rcases Waits.of_next placed guard waits with
    old | ⟨l, pushed⟩ | ⟨l, appended⟩ | ⟨t, called⟩
  · exact up_of_message placed old
  · cases pushed with
    | sendInLoop _ _ running connected =>
        subst running
        exact (placed.loops l).copies c guard.2
  · rcases appended.call rfl with ⟨l', _, _, top⟩ | ⟨t, _, calling⟩
    · exact up_of_message placed (.inl ⟨l', mem_tasks_of_onStack (submitted_onStack top)⟩)
    · exact up_of_message placed (.inr ⟨t, calling⟩)
  · cases called with
    | sendInLoop _ _ running connected =>
        subst running
        exact (placed.threads t).copies c guard.2.2

theorem inFlight_eq_nil {w : World} {T : Caller} {c : ConnId}
    (none : ∀ data, ¬ w.Waits (.sendInLoop c data T)) :
    withLoop T c w = [] ∧ withSender T c w = [] := by
  have onLoop : ∀ l, messagesIn T c (w.loops l).tasks = [] :=
    fun l => messagesIn_eq_nil fun data member => none data (.inl ⟨l, member⟩)
  refine ⟨onLoop _, ?_⟩
  unfold withSender
  split
  · split
    · rfl
    · exact onLoop _
  · rename_i t
    exact messagesIn_eq_nil fun data member => none data (.inr ⟨t, Option.mem_toList.mp member⟩)

/-! ### The actions that move a message -/

/-- A functor that is queued for its loop is behind the others there. -/
theorem messages_queueInLoop (w : World) (T : Caller) (c : ConnId) (ioLoop l : LoopId)
    (task : Task) :
    messagesIn T c ((w.queueInLoop ioLoop [task]).loops l).tasks =
      messagesIn T c (w.loops l).tasks ++
        if l = ioLoop then messagesIn T c [task] else [] := by
  rw [tasks_queueInLoop, messagesIn_append]
  split <;> rfl

/-- A functor that goes to another loop than the connection's is no message to it. -/
theorem messagesIn_conn (w : World) (T : Caller) (c : ConnId) (task : Task) :
    (if (w.conns c).conn.loop = w.target task then messagesIn T c [task] else []) =
      messagesIn T c [task] := by
  split
  · rfl
  · rename_i elsewhere
    exact (messagesIn_elsewhere T (Ne.symm elsewhere)).symm

/-- A functor for another loop goes from the top of its stack to the end of the queue there. -/
theorem messages_submit {w : World} {l : LoopId} {task : Task}
    (submitted : w.submitted l = some task) (T : Caller) (c : ConnId) (l' : LoopId) :
    ∃ rest,
      messagesIn T c (w.loops l').tasks =
          (if l' = l then messagesIn T c [task] else []) ++ rest ∧
        messagesIn T c ((w.next (.submit l)).loops l').tasks =
          rest ++ if l' = w.target task then messagesIn T c [task] else [] := by
  obtain ⟨frames, stack⟩ := List.head?_eq_some_iff.mp (submitted_eq submitted).1
  refine ⟨messagesIn T c ((w.setLoop l (w.loops l).pop).loops l').tasks, ?_, ?_⟩
  · rw [tasks_setLoop]
    split
    · rename_i here
      rw [here, Loop.tasks_pop stack, messagesIn_append]
      rfl
    · rfl
  · simp only [next, submitted]
    exact messages_queueInLoop _ T c _ l' task

/-- A thread of the user queues the functor that it has in its hands. -/
theorem messages_byThread {w : World} {t : ThreadId} {task : Task}
    (calling : (w.threads t).calling = some task) (T : Caller) (c : ConnId) (l : LoopId) :
    messagesIn T c ((w.next (.queueInLoop t)).loops l).tasks =
      messagesIn T c (w.loops l).tasks ++
        if l = w.target task then messagesIn T c [task] else [] := by
  simp only [next, calling]
  exact messages_queueInLoop _ T c _ l task

/-- A call of `send` by user code is a call of `sendInLoop` on the top of the stack. -/
theorem messages_userSend (w : World) (T : Caller) (c : ConnId) (l : LoopId) (c' : ConnId)
    (data : List Byte) (l' : LoopId) :
    messagesIn T c ((w.next (.userSend l c' data)).loops l').tasks =
      (if l' = l then sent T c w (.userSend l c' data) else []) ++
        messagesIn T c (w.loops l').tasks := by
  simp only [next, sent]
  split
  · rename_i connected
    rw [tasks_setLoop]
    split
    · rename_i here
      rw [Loop.tasks_push, messagesIn_append, here]
      congr 1
      split
      · rename_i mine
        rw [mine.1, mine.2.1]
        exact messagesIn_send c data (.loop l)
      · rename_i other
        apply messagesIn_eq_nil
        intro bytes member
        cases List.mem_singleton.mp member
        exact other ⟨rfl, rfl, connected⟩
    · rfl
  · rename_i unconnected
    have nothing : ¬ (c' = c ∧ T = .loop l ∧ (w.conns c').conn.connected = true) :=
      fun accepts => unconnected accepts.2.2
    rw [if_neg nothing, ite_self, List.nil_append]

/-! ### The threads of the user -/

/-- The functor in a thread's hands changes only when a call of `queueInLoop` begins or ends. -/
theorem calling_next {w : World} {a : Action} (guard : w.Enabled a) (begins : calls a = false)
    (ends : queues? a = none) (t : ThreadId) :
    ((w.next a).threads t).calling = (w.threads t).calling := by
  have change := next_thread guard t
  generalize (w.next a).threads t = thread at change ⊢
  cases change with
  | same idle => rfl
  | gained c source => rfl
  | dropped c running => rfl
  | called task free called =>
      cases called with
      | sendInLoop c data running connected | shutdownInLoop c running connected
      | user c running =>
          subst running
          cases begins
  | queued task running calling =>
      subst running
      cases ends

/-- A call of `send` on a thread of the user takes the message into the thread's hands. -/
theorem withSender_send {w : World} {t : ThreadId} (free : (w.threads t).calling = none)
    (c c' : ConnId) (data : List Byte) (t' : ThreadId) :
    withSender (.thread t') c (w.next (.send t c' data)) =
      withSender (.thread t') c w ++ sent (.thread t') c w (.send t c' data) := by
  simp only [withSender, sent, next]
  by_cases mine : t' = t
  · subst mine
    rw [free]
    by_cases connected : (w.conns c').conn.connected = true
    · rw [if_pos connected, setThread_threads, Function.update_self]
      change messagesIn (.thread t') c [.sendInLoop c' data (.thread t')] = [] ++ _
      by_cases same : c' = c
      · subst same
        rw [messagesIn_send, if_pos ⟨rfl, rfl, connected⟩, List.nil_append]
      · rw [if_neg fun accepts => same accepts.1]
        apply messagesIn_eq_nil
        intro bytes member
        cases List.mem_singleton.mp member
        exact same rfl
    · rw [if_neg connected, if_neg fun accepts => connected accepts.2.2, free]
      rfl
  · have nothing : ¬ (c' = c ∧ Caller.thread t' = .thread t ∧
        (w.conns c').conn.connected = true) := by
      rintro ⟨_, ⟨⟩, _⟩
      exact mine rfl
    rw [if_neg nothing, List.append_nil]
    split
    · rw [setThread_threads, Function.update_of_ne mine]
    · rfl

/-- A call that is no `send` brings no message. -/
theorem withSender_call {w w' : World} {t : ThreadId} (free : (w.threads t).calling = none)
    (task : Task) (silent : ∀ c, task.sendTo c = none)
    (threads : w'.threads = w.threads ∨
      w'.threads = Function.update w.threads t { w.threads t with calling := some task })
    (c : ConnId) (t' : ThreadId) :
    withSender (.thread t') c w' = withSender (.thread t') c w := by
  simp only [withSender]
  rcases threads with same | called
  · rw [same]
  · rw [called, Function.update_apply]
    split
    · rename_i here
      rw [here, free]
      simp [messagesIn, silent]
    · rfl

end World

/-- A message that comes from the stack of a loop is of user code on this loop. -/
theorem messagesIn_submitted {w : World} (reachable : server.Reachable w) {T : Caller} {c : ConnId}
    {l : LoopId} {task : Task} (submitted : w.submitted l = some task) (other : T ≠ .loop l) :
    messagesIn T c [task] = [] := by
  apply messagesIn_eq_nil
  intro data member
  rw [List.mem_singleton] at member
  exact other ((sendersOk reachable).stack l c data T (member ▸ World.submitted_onStack submitted))

/-- A message that comes out of the hands of a thread is this thread's. -/
theorem messagesIn_calling {w : World} (reachable : server.Reachable w) {T : Caller} {c : ConnId}
    {t : ThreadId} {task : Task} (calling : (w.threads t).calling = some task)
    (other : T ≠ .thread t) : messagesIn T c [task] = [] := by
  apply messagesIn_eq_nil
  intro data member
  rw [List.mem_singleton] at member
  exact other ((sendersOk reachable).calling t c data T (member ▸ calling))

section Step

variable {w : World} (reachable : server.Reachable w) {a : Action} (guard : w.Enabled a)
  {c : ConnId} (T : Caller)

include reachable guard

/-- User code on a loop thread has no message of its own in front of a new one. -/
theorem userSend_first {l : LoopId} {c' : ConnId} {data : List Byte}
    (running : a = .userSend l c' data) :
    World.sent T c w a ++ messagesIn T c (w.loops l).tasks =
      messagesIn T c (w.loops l).tasks ++ World.sent T c w a := by
  subst running
  by_cases mine : T = .loop l
  · have none : messagesIn T c (w.loops l).tasks = [] := by
      subst mine
      apply messagesIn_eq_nil
      apply own_send_notMem reachable
      intro frame top
      obtain ⟨held, rest, stack, _⟩ := World.copies_eq guard.2
      rw [stack] at top
      cases top
      rfl
    rw [none, List.append_nil, List.nil_append]
  · have nothing : World.sent T c w (.userSend l c' data) = [] :=
      if_neg fun accepts => mine accepts.2.1
    rw [nothing, List.append_nil, List.nil_append]

/-- The connection's loop is a pipe for the messages of `T`. -/
theorem withLoop_step (sameLoop : ((w.next a).conns c).conn.loop = (w.conns c).conn.loop) :
    messagesOf T (World.executed c w a) ++ World.withLoop T c (w.next a) =
      World.withLoop T c w ++ World.handedOver T c w a := by
  have placed := placed reachable
  have onOthers : World.moves a = false → World.handedOver T c w a = [] →
      messagesOf T (World.executed c w a) ++ World.withLoop T c (w.next a) =
        World.withLoop T c w ++ World.handedOver T c w a := by
    intro still nothing
    obtain ⟨taken, takes, split⟩ :=
      World.messages_next placed guard still T c (w.conns c).conn.loop
    rw [nothing, List.append_nil, World.withLoop, World.withLoop, sameLoop, split]
    congr 1
    cases takes with
    | nothing idle =>
        have none : World.executed c w a = [] := by
          cases a with
          | run l kernel =>
              by_cases here : l = (w.conns c).conn.loop
              · obtain ⟨_, job, current, _, _⟩ := guard
                rw [Option.mem_def] at current
                simp only [World.executed, current]
                cases job with
                | task task => exact absurd current (here ▸ idle kernel task (here ▸ rfl))
                | callback callback c' | releaseGuard c' | closeCallback c'
                | removeChannel c' => rfl
              · exact World.executed_elsewhere guard here
          | _ => rfl
        rw [none]
        rfl
    | ran kernel task running current =>
        subst running
        simp only [World.executed, current, messagesIn, Job.sendTo]
        cases sends : Task.sendTo c task <;> simp [sends]
    | submitted task running top =>
        subst running
        cases still
  cases a with
  | userSend l c' data =>
      have first : World.sent T c w (.userSend l c' data) ++ messagesIn T c (w.loops l).tasks =
          messagesIn T c (w.loops l).tasks ++ World.sent T c w (.userSend l c' data) :=
        userSend_first reachable guard T rfl
      change [] ++ World.withLoop T c (w.next (.userSend l c' data)) = World.withLoop T c w ++
        if l = (w.conns c).conn.loop then World.sent T c w (.userSend l c' data) else []
      rw [List.nil_append, World.withLoop, World.withLoop, sameLoop, World.messages_userSend]
      by_cases here : l = (w.conns c).conn.loop
      · subst here
        rw [if_pos rfl]
        exact first
      · rw [if_neg (Ne.symm here), if_neg here, List.append_nil, List.nil_append]
  | submit l =>
      obtain ⟨task, submitted⟩ := Option.isSome_iff_exists.mp guard.2
      obtain ⟨rest, before, after⟩ :=
        World.messages_submit submitted T c (w.conns c).conn.loop
      change [] ++ World.withLoop T c (w.next (.submit l)) =
        World.withLoop T c w ++ messagesIn T c (w.submitted l).toList
      have notHere : (if (w.conns c).conn.loop = l then messagesIn T c [task] else []) = [] := by
        split
        · rename_i here
          exact World.messagesIn_elsewhere T (here ▸ (World.submitted_eq submitted).2)
        · rfl
      rw [World.withLoop, World.withLoop, sameLoop, submitted, before, after, notHere,
        World.messagesIn_conn]
      rfl
  | queueInLoop t =>
      obtain ⟨task, calling⟩ := Option.isSome_iff_exists.mp guard.2
      change [] ++ World.withLoop T c (w.next (.queueInLoop t)) =
        World.withLoop T c w ++ messagesIn T c (w.threads t).calling.toList
      rw [World.withLoop, World.withLoop, sameLoop, World.messages_byThread calling, calling,
        World.messagesIn_conn]
      rfl
  | _ => exact onOthers rfl rfl

/-- The hands of a thread are a pipe for its messages. -/
theorem withSender_thread_step (t : ThreadId) :
    World.handedOver (.thread t) c w a ++ World.withSender (.thread t) c (w.next a) =
      World.withSender (.thread t) c w ++ World.sent (.thread t) c w a := by
  have unmoved : World.handedOver (.thread t) c w a = [] → World.sent (.thread t) c w a = [] →
      World.withSender (.thread t) c (w.next a) = World.withSender (.thread t) c w →
      World.handedOver (.thread t) c w a ++ World.withSender (.thread t) c (w.next a) =
        World.withSender (.thread t) c w ++ World.sent (.thread t) c w a := by
    intro nothing silent same
    rw [nothing, silent, same, List.append_nil, List.nil_append]
  have kept : World.calls a = false → World.queues? a = none →
      World.withSender (.thread t) c (w.next a) = World.withSender (.thread t) c w := by
    intro begins ends
    rw [World.withSender, World.withSender, World.calling_next guard begins ends]
  cases a with
  | send t' c' data => exact World.withSender_send guard.2.1 c c' data t
  | shutdown t' c' =>
      refine unmoved rfl rfl (World.withSender_call guard.2.1 (.shutdownInLoop c')
        (fun _ => rfl) ?_ c t)
      simp only [World.next]
      split
      · exact .inr rfl
      · exact .inl rfl
  | queueUser t' c' =>
      exact unmoved rfl rfl (World.withSender_call guard.2.1 (.user c') (fun _ => rfl)
        (.inr rfl) c t)
  | queueInLoop t' =>
      obtain ⟨task, calling⟩ := Option.isSome_iff_exists.mp guard.2
      have threads : (w.next (.queueInLoop t')).threads =
          Function.update w.threads t' { w.threads t' with calling := none } := by
        simp only [World.next, calling]
        rfl
      change messagesIn (.thread t) c (w.threads t').calling.toList ++
          messagesIn (.thread t) c ((w.next (.queueInLoop t')).threads t).calling.toList =
        messagesIn (.thread t) c (w.threads t).calling.toList ++ []
      rw [List.append_nil, threads]
      by_cases mine : t = t'
      · subst mine
        rw [Function.update_self]
        exact List.append_nil _
      · have other : Caller.thread t ≠ .thread t' := fun same => mine (Caller.thread.inj same)
        have foreign := messagesIn_calling reachable (c := c) calling other
        rw [Function.update_of_ne mine, calling, Option.toList_some, foreign, List.nil_append]
  | submit l =>
      obtain ⟨task, submitted⟩ := Option.isSome_iff_exists.mp guard.2
      refine unmoved ?_ rfl (kept rfl rfl)
      rw [World.handedOver, submitted]
      exact messagesIn_submitted reachable submitted (by simp)
  | userSend l c' data =>
      have silent : World.sent (.thread t) c w (.userSend l c' data) = [] :=
        if_neg fun accepts => by simp at accepts
      refine unmoved ?_ silent (kept rfl rfl)
      rw [World.handedOver, silent, ite_self]
  | _ => exact unmoved rfl rfl (kept rfl rfl)

/-- On the connection's own loop a message is handed over as soon as it is accepted. -/
theorem handedOver_own :
    World.handedOver (.loop (w.conns c).conn.loop) c w a =
      World.sent (.loop (w.conns c).conn.loop) c w a := by
  cases a with
  | send t c' data => exact (if_neg fun accepts => by simp at accepts).symm
  | queueInLoop t =>
      obtain ⟨task, calling⟩ := Option.isSome_iff_exists.mp guard.2
      rw [World.handedOver, calling]
      exact messagesIn_calling reachable calling (by simp)
  | submit l =>
      obtain ⟨task, submitted⟩ := Option.isSome_iff_exists.mp guard.2
      rw [World.handedOver, submitted]
      by_cases here : l = (w.conns c).conn.loop
      · exact World.messagesIn_elsewhere _ (here ▸ (World.submitted_eq submitted).2)
      · exact messagesIn_submitted reachable submitted (by simpa using Ne.symm here)
  | userSend l c' data =>
      rw [World.handedOver]
      split
      · rfl
      · rename_i other
        refine (if_neg fun accepts => ?_).symm
        exact other (Caller.loop.inj accepts.2.1).symm
  | _ => rfl

/-- The stack of another loop is a pipe for the messages of the user code there. -/
theorem messages_other_loop_step {l : LoopId} (other : l ≠ (w.conns c).conn.loop) :
    World.handedOver (.loop l) c w a ++
        messagesIn (.loop l) c ((w.next a).loops l).tasks =
      messagesIn (.loop l) c (w.loops l).tasks ++ World.sent (.loop l) c w a := by
  have placed := placed reachable
  have unmoved : World.moves a = false → World.handedOver (.loop l) c w a = [] →
      World.sent (.loop l) c w a = [] →
      World.handedOver (.loop l) c w a ++ messagesIn (.loop l) c ((w.next a).loops l).tasks =
        messagesIn (.loop l) c (w.loops l).tasks ++ World.sent (.loop l) c w a := by
    intro still nothing silent
    obtain ⟨taken, takes, split⟩ := World.messages_next placed guard still (.loop l) c l
    have foreign : messagesIn (.loop l) c taken.toList = [] := by
      cases takes with
      | nothing idle => rfl
      | ran kernel task running current =>
          subst running
          obtain ⟨_, _, _, current', here, _⟩ := World.enabled_run guard
          rw [current] at current'
          cases current'
          exact World.messagesIn_elsewhere _ (here ▸ other)
      | submitted task running top =>
          subst running
          cases still
    rw [nothing, silent, split, foreign, List.append_nil]
  -- what is queued on this loop is no message to a connection of another one
  have elsewhere : ∀ task,
      (if l = w.target task then messagesIn (.loop l) c [task] else []) = [] := by
    intro task
    split
    · rename_i here
      exact World.messagesIn_elsewhere _ (here ▸ other)
    · rfl
  cases a with
  | userSend l' c' data =>
      have nothing : World.handedOver (.loop l) c w (.userSend l' c' data) = [] := by
        rw [World.handedOver]
        split
        · rename_i here
          refine if_neg fun accepts => other ?_
          rw [Caller.loop.inj accepts.2.1, here]
        · rfl
      rw [nothing, List.nil_append, World.messages_userSend]
      by_cases here : l = l'
      · subst here
        rw [if_pos rfl]
        exact userSend_first reachable guard (.loop l) rfl
      · have silent : World.sent (.loop l) c w (.userSend l' c' data) = [] :=
          if_neg fun accepts => here (Caller.loop.inj accepts.2.1)
        rw [silent, ite_self, List.append_nil, List.nil_append]
  | submit l' =>
      obtain ⟨task, submitted⟩ := Option.isSome_iff_exists.mp guard.2
      obtain ⟨rest, before, after⟩ := World.messages_submit submitted (.loop l) c l
      have taken : (if l = l' then messagesIn (.loop l) c [task] else []) =
          messagesIn (.loop l) c [task] := by
        split
        · rfl
        · rename_i here
          exact (messagesIn_submitted reachable submitted (by simpa using here)).symm
      rw [before, after, elsewhere, taken, World.handedOver, submitted]
      simp [World.sent]
  | queueInLoop t =>
      obtain ⟨task, calling⟩ := Option.isSome_iff_exists.mp guard.2
      have foreign := messagesIn_calling reachable (T := .loop l) (c := c) calling (by simp)
      rw [World.messages_byThread calling, elsewhere, World.handedOver, calling,
        Option.toList_some, foreign]
      simp [World.sent]
  | send t c' data => exact unmoved rfl rfl (if_neg fun accepts => by simp at accepts)
  | _ => exact unmoved rfl rfl rfl

/-- The sender is a pipe for its messages. -/
theorem withSender_step (sameLoop : ((w.next a).conns c).conn.loop = (w.conns c).conn.loop) :
    World.handedOver T c w a ++ World.withSender T c (w.next a) =
      World.withSender T c w ++ World.sent T c w a := by
  cases T with
  | thread t => exact withSender_thread_step reachable guard t
  | loop l =>
      simp only [World.withSender, sameLoop]
      by_cases own : l = (w.conns c).conn.loop
      · subst own
        rw [if_pos rfl, if_pos rfl, handedOver_own reachable guard, List.append_nil,
          List.nil_append]
      · rw [if_neg own, if_neg own]
        exact messages_other_loop_step reachable guard own

/-- Nothing moves before the connection is up. -/
theorem nothing_moves (down : ¬ w.Up c) :
    messagesOf T (World.executed c w a) = [] ∧ World.handedOver T c w a = [] ∧
      World.sent T c w a = [] := by
  have placed := placed reachable
  have silent : ∀ task, w.Waits task → messagesIn T c [task] = [] := by
    intro task waits
    apply messagesIn_eq_nil
    intro data member
    exact down (World.up_of_message placed (List.mem_singleton.mp member ▸ waits))
  have unsent : World.sent T c w a = [] := by
    unfold World.sent
    split
    · refine if_neg fun accepts => down ?_
      exact accepts.1 ▸ (placed.loops _).copies _ guard.2
    · refine if_neg fun accepts => down ?_
      exact accepts.1 ▸ (placed.threads _).copies _ guard.2.2
    · rfl
  refine ⟨?_, ?_, unsent⟩
  · cases a with
    | run l kernel =>
        obtain ⟨job, loop, fetched, current, _, _⟩ := World.enabled_run guard
        have ok := ((placed.loops l).fetch fetched).1
        simp only [World.executed, current]
        cases job with
        | task task =>
            cases task with
            | sendInLoop c' data caller =>
                have other : (Job.task (.sendInLoop c' data caller)).conn ≠ c :=
                  fun same => down (same ▸ ok.1.2.1 rfl)
                rw [Job.sendTo_other other]
                rfl
            | _ => rfl
        | _ => rfl
    | _ => rfl
  · cases a with
    | userSend l c' data =>
        rw [World.handedOver, unsent, ite_self]
    | submit l =>
        obtain ⟨task, submitted⟩ := Option.isSome_iff_exists.mp guard.2
        rw [World.handedOver, submitted]
        exact silent task (.inl ⟨l, World.mem_tasks_of_onStack (World.submitted_onStack submitted)⟩)
    | queueInLoop t =>
        obtain ⟨task, calling⟩ := Option.isSome_iff_exists.mp guard.2
        rw [World.handedOver, calling]
        exact silent task (.inr ⟨t, calling⟩)
    | _ => rfl

/-- Both pipe laws hold before the connection is up, too. -/
theorem pipes_step :
    messagesOf T (World.executed c w a) ++ World.withLoop T c (w.next a) =
        World.withLoop T c w ++ World.handedOver T c w a ∧
      World.handedOver T c w a ++ World.withSender T c (w.next a) =
        World.withSender T c w ++ World.sent T c w a := by
  have placed := placed reachable
  by_cases up : w.Up c
  · have sameLoop := (placed.next_extends guard).loop c up.1
    exact ⟨withLoop_step reachable guard T sameLoop, withSender_step reachable guard T sameLoop⟩
  · obtain ⟨unexecuted, unmoved, unsent⟩ := nothing_moves reachable guard T up
    have before := World.inFlight_eq_nil (T := T)
      fun data waits => up (World.up_of_message placed waits)
    have after := World.inFlight_eq_nil (T := T) (w := w.next a)
      fun data waits => up (World.up_of_message_next placed guard waits)
    rw [unexecuted, unmoved, unsent, before.1, before.2, after.1, after.2]
    exact ⟨rfl, rfl⟩

end Step

/-! ### The law -/

/-- From the acceptance of a message by `send` to its execution by `sendInLoop`. -/
def sendPipe (T : Caller) (c : ConnId) : Machine.Pipe server (List Byte) :=
  Machine.Pipe.series
    { held := World.withSender T c
      enters := World.sent T c
      leaves := World.handedOver T c
      step := fun _ _ reachable guard => (pipes_step reachable guard T).2 }
    { held := World.withLoop T c
      enters := World.handedOver T c
      leaves := fun w a => messagesOf T (World.executed c w a)
      step := fun _ _ reachable guard => (pipes_step reachable guard T).1 }
    fun _ _ _ _ => rfl

theorem sendPipe_held_initial {start : World} (initial : server.initial start) (T : Caller)
    (c : ConnId) : (sendPipe T c).held start = [] := by
  obtain ⟨name, ipPort, callbacks, ioLoops, users, rfl⟩ := initial
  have none : ∀ data,
      ¬ (World.started name ipPort callbacks ioLoops users).Waits (.sendInLoop c data T) := by
    rintro data (⟨l, member⟩ | ⟨t, calling⟩)
    · cases member
    · cases calling
  change World.withLoop T c _ ++ World.withSender T c _ = []
  rw [(World.inFlight_eq_nil none).1, (World.inFlight_eq_nil none).2]
  rfl

/-- Every message that `send` accepts is executed exactly once, and those of one sender in the
order of their acceptance: over every interleaving the executed ones, followed by those in flight,
are the accepted ones. -/
theorem messages_executed_in_order {start : World} (initial : server.initial start)
    {schedule : List Action} (admitted : server.Admits start schedule) (c : ConnId) (T : Caller) :
    messagesOf T (server.outputs (World.executed c) start schedule) ++
        World.inFlight T c (server.exec start schedule) =
      server.outputs (World.sent T c) start schedule := by
  rw [← Machine.outputs_hom (messagesOf T) rfl (messagesOf_append T)]
  exact (sendPipe T c).run_of_empty (.start initial) admitted (sendPipe_held_initial initial T c)

end EduMuduo

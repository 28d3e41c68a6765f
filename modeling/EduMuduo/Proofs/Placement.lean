/-
Module: EduMuduo.Proofs.Placement
Layer: Proofs
Purpose: Everything stands where it belongs.  Functors wait on the loop of their connection, calls
  and callbacks are on the stack of that loop, and whatever can touch a connection, a functor, a
  frame, an event or a copy held by the user, exists only after `connectEstablished` has begun.
  The facts are monotone in the history, so one lemma for each change to a part suffices.
Imports: EduMuduo.Proofs.ServerSteps
Trusted boundary: none
Main exports: World.Up, World.Extends, World.Placed, World.placed
-/
import EduMuduo.Proofs.ServerSteps

namespace EduMuduo

open Library

namespace World

/-! ### The facts -/

/-- `connectEstablished` has begun on the connection's loop. -/
def Up (w : World) (c : ConnId) : Prop :=
  c < w.created ∧ .connectEstablished (w.conns c).conn.loop ∈ (w.conns c).history

def TaskOk (w : World) (task : Task) : Prop :=
  task.conn < w.created ∧ (task.hop = false → w.Up task.conn) ∧
    ∀ c, task = .removeConnectionInLoop c →
      w.Up c ∧ .handleClose ∈ (w.conns c).history ∧ .closeCallback ∈ (w.conns c).history

def JobOk (w : World) (l : LoopId) : Job → Prop
  | .task task => w.TaskOk task ∧ (task.hop = true → w.target task = l)
  | .callback _ c | .releaseGuard c => w.Up c ∧ (w.conns c).conn.loop = l
  | .closeCallback c =>
      w.Up c ∧ (w.conns c).conn.loop = l ∧ .handleClose ∈ (w.conns c).history
  | .removeChannel c =>
      c < w.created ∧ (w.conns c).conn.loop = l ∧ .connectDestroyed l ∈ (w.conns c).history

def FrameOk (w : World) (l : LoopId) : Frame → Prop
  | .job job => w.JobOk l job
  | .user held => ∀ c ∈ held, w.Up c
  | .destroyServer | .quitThread _ | .joinThread _ | .destroyAcceptor => l = 0

structure LoopOk (w : World) (l : LoopId) (loop : Loop) : Prop where
  stack : ∀ frame ∈ loop.stack, w.FrameOk l frame
  waiting : ∀ task ∈ loop.functors.waiting, w.TaskOk task ∧ w.target task = l
  active : ∀ c revents, .channel c revents ∈ loop.activeChannels →
    w.Up c ∧ (w.conns c).conn.loop = l
  between : loop.phase ≠ .draining → loop.functors.batch = [] ∧ loop.functors.ran = []
  ended : loop.destroyed = true → l ≠ 0 ∧ loop.phase = .stopped

structure ThreadOk (w : World) (thread : UserThread) : Prop where
  copies : ∀ c ∈ thread.copies, w.Up c
  calling : ∀ task, thread.calling = some task → task.hop = false ∧ w.Up task.conn

/-- A connection is untouched until `connectEstablished`. -/
structure ConnOk (w : World) (c : ConnId) : Prop where
  unborn : w.created ≤ c → (w.conns c).history = []
  untouched : ¬ w.Up c →
    (w.conns c).conn.channel.channel.index = .kNew ∧ (w.conns c).conn.state ≠ .connected

structure Placed (w : World) : Prop where
  loops : ∀ l, w.LoopOk l (w.loops l)
  threads : ∀ t, w.ThreadOk (w.threads t)
  conns : ∀ c, w.ConnOk c
  entries : ∀ name c, (name, c) ∈ w.server.connections →
    c < w.created ∧ (w.conns c).conn.name = name

/-! ### They are monotone -/

/-- The later world has the connections of the earlier one, on their loops, under their names and
with a longer history. -/
structure Extends (w w' : World) : Prop where
  created : w.created ≤ w'.created
  loop : ∀ c < w.created, (w'.conns c).conn.loop = (w.conns c).conn.loop
  name : ∀ c < w.created, (w'.conns c).conn.name = (w.conns c).conn.name
  history : ∀ c < w.created, ∀ event ∈ (w.conns c).history, event ∈ (w'.conns c).history

section Monotone

variable {w w' : World} (later : w.Extends w')

include later

theorem Up.mono {c : ConnId} (up : w.Up c) : w'.Up c := by
  refine ⟨Nat.lt_of_lt_of_le up.1 later.created, ?_⟩
  rw [later.loop c up.1]
  exact later.history c up.1 _ up.2

theorem TaskOk.mono {task : Task} (ok : w.TaskOk task) : w'.TaskOk task := by
  refine ⟨Nat.lt_of_lt_of_le ok.1 later.created, fun plain => (ok.2.1 plain).mono later, ?_⟩
  intro c same
  obtain ⟨up, closed, called⟩ := ok.2.2 c same
  exact ⟨up.mono later, later.history c up.1 _ closed, later.history c up.1 _ called⟩

theorem Extends.target {task : Task} (known : task.conn < w.created) :
    w'.target task = w.target task := by
  cases task with
  | removeConnectionInLoop c => rfl
  | _ => exact later.loop _ known

theorem JobOk.mono {l : LoopId} {job : Job} (ok : w.JobOk l job) : w'.JobOk l job := by
  cases job with
  | task task =>
      refine ⟨TaskOk.mono later ok.1, fun hop => ?_⟩
      rw [later.target ok.1.1]
      exact ok.2 hop
  | callback callback c => exact ⟨ok.1.mono later, (later.loop c ok.1.1).trans ok.2⟩
  | releaseGuard c => exact ⟨ok.1.mono later, (later.loop c ok.1.1).trans ok.2⟩
  | closeCallback c =>
      exact ⟨ok.1.mono later, (later.loop c ok.1.1).trans ok.2.1,
        later.history c ok.1.1 _ ok.2.2⟩
  | removeChannel c =>
      exact ⟨Nat.lt_of_lt_of_le ok.1 later.created, (later.loop c ok.1).trans ok.2.1,
        later.history c ok.1 _ ok.2.2⟩

theorem FrameOk.mono {l : LoopId} {frame : Frame} (ok : w.FrameOk l frame) :
    w'.FrameOk l frame := by
  cases frame with
  | job job => exact JobOk.mono later ok
  | user held => exact fun c member => (ok c member).mono later
  | _ => exact ok

theorem LoopOk.mono {l : LoopId} {loop : Loop} (ok : w.LoopOk l loop) : w'.LoopOk l loop := by
  refine ⟨fun frame member => FrameOk.mono later (ok.stack frame member), ?_, ?_, ok.between,
    ok.ended⟩
  · intro task member
    obtain ⟨taskOk, here⟩ := ok.waiting task member
    exact ⟨taskOk.mono later, (later.target taskOk.1).trans here⟩
  · intro c revents member
    obtain ⟨up, here⟩ := ok.active c revents member
    exact ⟨up.mono later, (later.loop c up.1).trans here⟩

theorem ThreadOk.mono {thread : UserThread} (ok : w.ThreadOk thread) : w'.ThreadOk thread :=
  ⟨fun c member => (ok.copies c member).mono later,
    fun task calling => ⟨(ok.calling task calling).1, (ok.calling task calling).2.mono later⟩⟩

end Monotone

/-! ### One lemma for each change to a part -/

theorem Extends.of_same {w w' : World} (conns : w'.conns = w.conns)
    (created : w'.created = w.created) : w.Extends w' := by
  refine ⟨Nat.le_of_eq created.symm, fun c _ => ?_, fun c _ => ?_, fun c _ event member => ?_⟩
  · rw [conns]
  · rw [conns]
  · rw [conns]
    exact member

theorem ConnOk.of_same {w w' : World} (conns : w'.conns = w.conns)
    (created : w'.created = w.created) {c : ConnId} (ok : w.ConnOk c) : w'.ConnOk c := by
  refine ⟨fun unborn => ?_, fun down => ?_⟩
  · rw [conns]
    exact ok.unborn (created ▸ unborn)
  · rw [conns]
    exact ok.untouched fun up => down (up.mono (.of_same conns created))

/-- The connections stay as they are and the other parts keep their places. -/
theorem Placed.of_same {w w' : World} (placed : w.Placed) (conns : w'.conns = w.conns)
    (created : w'.created = w.created) (loops : ∀ l, w.LoopOk l (w'.loops l))
    (threads : ∀ t, w.ThreadOk (w'.threads t))
    (entries : w'.server.connections ⊆ w.server.connections) : w'.Placed := by
  have later : w.Extends w' := .of_same conns created
  refine ⟨fun l => (loops l).mono later, fun t => (threads t).mono later,
    fun c => (placed.conns c).of_same conns created, fun name c member => ?_⟩
  rw [conns, created]
  exact placed.entries name c (entries member)

theorem Placed.setLoop {w : World} (placed : w.Placed) {l : LoopId} {loop : Loop}
    (ok : w.LoopOk l loop) : (w.setLoop l loop).Placed := by
  refine placed.of_same rfl rfl (fun l' => ?_) placed.threads (List.Subset.refl _)
  rw [setLoop_loops, Function.update_apply]
  split
  · rename_i same
    exact same ▸ ok
  · exact placed.loops l'

theorem Placed.setThread {w : World} (placed : w.Placed) {t : ThreadId} {thread : UserThread}
    (ok : w.ThreadOk thread) : (w.setThread t thread).Placed := by
  refine placed.of_same rfl rfl placed.loops (fun t' => ?_) (List.Subset.refl _)
  rw [setThread_threads, Function.update_apply]
  split
  · exact ok
  · exact placed.threads t'

theorem Placed.setConnections {w : World} (placed : w.Placed) {connections : ConnectionMap}
    (fewer : connections ⊆ w.server.connections) : (w.setConnections connections).Placed :=
  placed.of_same rfl rfl placed.loops placed.threads fewer

/-- A new value of a connection that keeps its loop and name. -/
theorem extends_setConn (w : World) (c : ConnId) (conn : TcpConnection) (events : List Event)
    (loop : conn.loop = (w.conns c).conn.loop) (name : conn.name = (w.conns c).conn.name) :
    w.Extends (w.setConn c conn events) := by
  refine ⟨Nat.le_refl _, fun c' _ => ?_, fun c' _ => ?_, fun c' _ event member => ?_⟩ <;>
    rw [setConn_conns, Function.update_apply] <;> split
  · rename_i same
    exact same ▸ loop
  · rfl
  · rename_i same
    exact same ▸ name
  · rfl
  · rename_i same
    subst same
    exact List.mem_append_left _ member
  · exact member

theorem Placed.setConn {w : World} (placed : w.Placed) {c : ConnId} {conn : TcpConnection}
    {events : List Event} (known : c < w.created) (loop : conn.loop = (w.conns c).conn.loop)
    (name : conn.name = (w.conns c).conn.name)
    (untouched : ¬ (w.setConn c conn events).Up c →
      conn.channel.channel.index = .kNew ∧ conn.state ≠ .connected) :
    (w.setConn c conn events).Placed := by
  have later := w.extends_setConn c conn events loop name
  refine ⟨fun l => (placed.loops l).mono later, fun t => (placed.threads t).mono later, ?_, ?_⟩
  · intro c'
    by_cases same : c' = c
    · subst same
      refine ⟨fun unborn => absurd known (Nat.not_lt_of_le unborn), fun down => ?_⟩
      rw [setConn_conns, Function.update_self]
      exact untouched down
    · have other : (w.setConn c conn events).conns c' = w.conns c' :=
        Function.update_of_ne same _ _
      refine ⟨fun unborn => ?_, fun down => ?_⟩
      · rw [other]
        exact (placed.conns c').unborn unborn
      · rw [other]
        refine (placed.conns c').untouched fun up => down ?_
        exact up.mono later
  · intro entry c' member
    obtain ⟨before, same⟩ := placed.entries entry c' member
    exact ⟨before, (later.name c' before).trans same⟩

/-- The base loop stays. -/
theorem Placed.base {w : World} (placed : w.Placed) : (w.loops 0).destroyed = false := by
  cases gone : (w.loops 0).destroyed with
  | false => rfl
  | true => exact absurd rfl ((placed.loops 0).ended gone).1

/-- So does a loop that runs. -/
theorem Placed.running {w : World} (placed : w.Placed) {l : LoopId}
    (running : (w.loops l).phase ≠ .stopped) : (w.loops l).destroyed = false := by
  cases gone : (w.loops l).destroyed with
  | false => rfl
  | true => exact absurd ((placed.loops l).ended gone).2 running

theorem LoopOk.push {w : World} {l : LoopId} {loop : Loop} (ok : w.LoopOk l loop)
    {frames : List Frame} (new : ∀ frame ∈ frames, w.FrameOk l frame) :
    w.LoopOk l (loop.push frames) := by
  refine ⟨fun frame member => ?_, ok.waiting, ok.active, ok.between, ok.ended⟩
  rcases List.mem_append.mp member with pushed | old
  · exact new frame pushed
  · exact ok.stack frame old

theorem LoopOk.pushOne {w : World} {l : LoopId} {loop : Loop} (ok : w.LoopOk l loop)
    {frame : Frame} (new : w.FrameOk l frame) : w.LoopOk l (loop.push [frame]) :=
  ok.push (List.forall_mem_singleton.mpr new)

theorem LoopOk.pop {w : World} {l : LoopId} {loop : Loop} (ok : w.LoopOk l loop) :
    w.LoopOk l loop.pop :=
  ⟨fun frame member => ok.stack frame (List.mem_of_mem_tail member), ok.waiting, ok.active,
    ok.between, ok.ended⟩

theorem Placed.queueInLoop {w : World} (placed : w.Placed) {l : LoopId} {tasks : List Task}
    (new : ∀ task ∈ tasks, w.TaskOk task ∧ w.target task = l) :
    (w.queueInLoop l tasks).Placed := by
  refine placed.setLoop ⟨(placed.loops l).stack, fun task member => ?_, (placed.loops l).active,
    (placed.loops l).between, (placed.loops l).ended⟩
  rw [Loop.queueInLoop, BatchQueue.waiting_pushAll] at member
  rcases List.mem_append.mp member with old | pushed
  · exact (placed.loops l).waiting task old
  · exact new task pushed

theorem Placed.queueOne {w : World} (placed : w.Placed) {task : Task} (ok : w.TaskOk task) :
    (w.queueInLoop (w.target task) [task]).Placed :=
  placed.queueInLoop (List.forall_mem_singleton.mpr ⟨ok, rfl⟩)

theorem Placed.runInLoop {w : World} (placed : w.Placed) {l : LoopId} {task : Task}
    (ok : w.TaskOk task) : (w.runInLoop l (w.target task) task).Placed := by
  rw [World.runInLoop]
  split
  · rename_i here
    exact placed.setLoop ((placed.loops l).pushOne ⟨ok, fun _ => here⟩)
  · exact placed.queueOne ok

/-! ### Jobs -/

/-- What the outcome of a job of connection `c` on loop `l` must satisfy, in the world in which the
connection has its new value. -/
structure OutcomeOk (w : World) (l : LoopId) (c : ConnId) (outcome : Outcome) : Prop where
  known : c < w.created
  loop : outcome.conn.loop = (w.conns c).conn.loop
  name : outcome.conn.name = (w.conns c).conn.name
  untouched : ¬ (w.setConn c outcome.conn outcome.events).Up c →
    outcome.conn.channel.channel.index = .kNew ∧ outcome.conn.state ≠ .connected
  frames : ∀ frame ∈ outcome.frames, (w.setConn c outcome.conn outcome.events).FrameOk l frame
  queued : ∀ task ∈ outcome.queued, (w.setConn c outcome.conn outcome.events).TaskOk task ∧
    (w.setConn c outcome.conn outcome.events).target task = outcome.target
  connections : outcome.connections ⊆ w.server.connections

theorem Placed.commit {w : World} (placed : w.Placed) {l : LoopId} {loop : Loop} {c : ConnId}
    {outcome : Outcome} (loopOk : w.LoopOk l loop) (ok : w.OutcomeOk l c outcome) :
    (w.commit l loop c outcome).Placed := by
  have later : w.Extends (w.setConn c outcome.conn outcome.events) :=
    w.extends_setConn c outcome.conn outcome.events ok.loop ok.name
  -- replacing the map does not matter to the facts
  have erased : ∀ connections, (w.setConn c outcome.conn outcome.events).Extends
      ((w.setConnections connections).setConn c outcome.conn outcome.events) :=
    fun connections => .of_same rfl rfl
  have first : ((w.setConnections outcome.connections).setConn c outcome.conn
      outcome.events).Placed :=
    (placed.setConnections ok.connections).setConn ok.known ok.loop ok.name fun down =>
      ok.untouched fun up => down (up.mono (erased _))
  have second : (((w.setConnections outcome.connections).setConn c outcome.conn
      outcome.events).setLoop l (loop.push outcome.frames)).Placed :=
    first.setLoop (((loopOk.mono later).mono (erased _)).push fun frame member =>
      FrameOk.mono (erased _) (ok.frames frame member))
  refine second.queueInLoop fun task member => ?_
  obtain ⟨taskOk, target⟩ := ok.queued task member
  have moved : (w.setConn c outcome.conn outcome.events).Extends
      (((w.setConnections outcome.connections).setConn c outcome.conn outcome.events).setLoop l
        (loop.push outcome.frames)) := .of_same rfl rfl
  exact ⟨taskOk.mono moved, (moved.target taskOk.1).trans target⟩

theorem LoopOk.fetch {w : World} {l : LoopId} {loop after : Loop} {job : Job}
    (ok : w.LoopOk l loop) (fetched : loop.fetch = some (job, after)) :
    w.JobOk l job ∧ w.LoopOk l after := by
  cases Loop.fetched fetched with
  | called _ rest top =>
      exact ⟨ok.stack (.job job) (by rw [top]; exact List.mem_cons_self), ok.pop⟩
  | functor task rest bottom draining next =>
      have split := BatchQueue.waiting_advance next
      obtain ⟨taskOk, here⟩ := ok.waiting task (by rw [split]; exact List.mem_cons_self)
      refine ⟨⟨taskOk, fun _ => here⟩, ok.stack, fun other member => ?_, ok.active,
        fun idle => absurd draining idle, ok.ended⟩
      exact ok.waiting other (by rw [split]; exact List.mem_cons_of_mem _ member)

/-- Once a connection is up, an outcome needs little. -/
theorem OutcomeOk.of_up {w : World} {l : LoopId} {c : ConnId} {outcome : Outcome} (up : w.Up c)
    (loop : outcome.conn.loop = (w.conns c).conn.loop)
    (name : outcome.conn.name = (w.conns c).conn.name)
    (frames : ∀ frame ∈ outcome.frames,
      (w.setConn c outcome.conn outcome.events).FrameOk l frame)
    (queued : ∀ task ∈ outcome.queued, (w.setConn c outcome.conn outcome.events).TaskOk task ∧
      (w.setConn c outcome.conn outcome.events).target task = outcome.target)
    (connections : outcome.connections ⊆ w.server.connections) : w.OutcomeOk l c outcome :=
  ⟨up.1, loop, name, fun down => absurd (up.mono (w.extends_setConn c _ _ loop name)) down, frames,
    queued, connections⟩

/-- A value that keeps loop and name, and no more. -/
theorem OutcomeOk.quiet {w : World} {l : LoopId} {c : ConnId} {conn : TcpConnection} (up : w.Up c)
    (loop : conn.loop = (w.conns c).conn.loop) (name : conn.name = (w.conns c).conn.name) :
    w.OutcomeOk l c (w.quiet conn) :=
  .of_up up loop name (List.forall_mem_nil _)
    (List.forall_mem_nil _) (List.Subset.refl _)

/-- A functor that is no hop needs a connection that is up, and stands anywhere. -/
theorem Up.taskOk {w : World} {task : Task} (up : w.Up task.conn) (plain : task.hop = false) :
    w.TaskOk task := by
  refine ⟨up.1, fun _ => up, ?_⟩
  rintro c rfl
  cases plain

theorem Up.callOk {w : World} {l : LoopId} {task : Task} (up : w.Up task.conn)
    (plain : task.hop = false) : w.JobOk l (.task task) := by
  refine ⟨up.taskOk plain, fun hop => ?_⟩
  rw [plain] at hop
  cases hop

/-- The functors that the connection queues for itself. -/
theorem functor_ok {w : World} {c : ConnId} (up : w.Up c) (queued : List Queued) :
    ∀ task ∈ queued.map (functor c), w.TaskOk task ∧ w.target task = (w.conns c).conn.loop := by
  intro task member
  obtain ⟨kind, _, rfl⟩ := List.mem_map.mp member
  cases kind with
  | writeCompleteCallback => exact ⟨up.taskOk rfl, rfl⟩
  | highWaterMarkCallback total => exact ⟨up.taskOk rfl, rfl⟩

/-- A user callback gets the connection it is about. -/
theorem user_ok {w : World} {l : LoopId} {c : ConnId} (up : w.Up c) :
    w.FrameOk l (.user [c]) := by
  intro held member
  rw [List.mem_singleton] at member
  exact member ▸ up

/-- A frame of the new list is an announcement, or one of the rest. -/
theorem announced_ok {w : World} {l : LoopId} {c : ConnId} {announce : Bool} {rest : List Frame}
    (up : announce = true → w.Up c) (others : ∀ frame ∈ rest, w.FrameOk l frame) :
    ∀ frame ∈ (if announce then [Frame.user [c]] else []) ++ rest, w.FrameOk l frame := by
  intro frame member
  rcases List.mem_append.mp member with announced | other
  · split at announced
    · rename_i announces
      rw [List.mem_singleton] at announced
      exact announced ▸ user_ok (up announces)
    · exact absurd announced List.not_mem_nil
  · exact others frame other

theorem handleClose_ok {w : World} {l : LoopId} {c : ConnId} {conn : TcpConnection} (up : w.Up c)
    (here : (w.conns c).conn.loop = l) (loop : conn.loop = (w.conns c).conn.loop)
    (name : conn.name = (w.conns c).conn.name) : w.OutcomeOk l c (w.handleClose c conn) := by
  have later := w.extends_setConn c (w.handleClose c conn).conn (w.handleClose c conn).events
    loop name
  refine .of_up up loop name (announced_ok (fun _ => up.mono later) ?_)
    (List.forall_mem_nil _) (List.Subset.refl _)
  rw [List.forall_mem_singleton]
  refine ⟨up.mono later, (later.loop c up.1).trans here, ?_⟩
  rw [setConn_self]
  simp [handleClose]

theorem connectEstablished_ok {w : World} {l : LoopId} {c : ConnId} (known : c < w.created)
    (here : (w.conns c).conn.loop = l) : w.OutcomeOk l c (w.connectEstablished l c) := by
  have up : (w.setConn c (w.connectEstablished l c).conn
      (w.connectEstablished l c).events).Up c := by
    refine ⟨known, ?_⟩
    rw [setConn_self]
    simp [connectEstablished, quiet, TcpConnection.connectEstablished, here]
  refine ⟨known, rfl, rfl, fun down => absurd up down, ?_,
    List.forall_mem_nil _, List.Subset.refl _⟩
  intro frame member
  simp only [connectEstablished] at member
  split at member
  · rw [List.mem_singleton] at member
    exact member ▸ user_ok up
  · exact absurd member List.not_mem_nil

theorem connectDestroyed_ok {w : World} {l : LoopId} {c : ConnId} (known : c < w.created)
    (conn : w.ConnOk c) (here : (w.conns c).conn.loop = l) :
    w.OutcomeOk l c (w.connectDestroyed l c) := by
  have loop : (w.conns c).conn.connectDestroyed.1.loop = (w.conns c).conn.loop := by
    rw [TcpConnection.connectDestroyed]
    split <;> rfl
  have name : (w.conns c).conn.connectDestroyed.1.name = (w.conns c).conn.name := by
    rw [TcpConnection.connectDestroyed]
    split <;> rfl
  have later := w.extends_setConn c (w.connectDestroyed l c).conn (w.connectDestroyed l c).events
    loop name
  refine ⟨known, loop, name, fun down => ?_, ?_, List.forall_mem_nil _,
    List.Subset.refl _⟩
  · obtain ⟨index, unconnected⟩ := conn.untouched fun up => down (up.mono later)
    have after : (w.connectDestroyed l c).conn =
        { (w.conns c).conn with state := .disconnected } := by
      simp [connectDestroyed, quiet, TcpConnection.connectDestroyed, unconnected]
    rw [after]
    exact ⟨index, by simp⟩
  · have announced : (w.conns c).conn.connectDestroyed.2 = true →
        (w.setConn c (w.connectDestroyed l c).conn (w.connectDestroyed l c).events).Up c := by
      intro announces
      by_contra down
      have unconnected := (conn.untouched fun up => down (up.mono later)).2
      simp [TcpConnection.connectDestroyed, unconnected] at announces
    refine announced_ok announced ?_
    · rw [List.forall_mem_singleton]
      refine ⟨known, (later.loop c known).trans here, ?_⟩
      rw [setConn_self]
      simp [connectDestroyed]

theorem removeConnectionInLoop_ok {w : World} {l : LoopId} {c : ConnId} (up : w.Up c) :
    w.OutcomeOk l c (w.removeConnectionInLoop c) := by
  rw [removeConnectionInLoop]
  split
  · refine .of_up up rfl rfl (List.forall_mem_nil _) ?_
      (List.filter_subset_self _)
    have destruction : (w.setConn c (w.conns c).conn [.removeConnectionInLoop]).TaskOk
        (.connectDestroyed c) := by
      refine ⟨up.1, ?_, ?_⟩
      · rintro ⟨⟩
      · rintro _ ⟨⟩
    refine List.forall_mem_singleton.mpr ⟨destruction, ?_⟩
    change ((w.setConn c _ _).conns c).conn.loop = (w.conns c).conn.loop
    rw [setConn_self]
    rfl
  · exact .of_up up rfl rfl (List.forall_mem_nil _)
      (List.forall_mem_nil _) (List.Subset.refl _)

theorem closeCallback_ok {w : World} {l : LoopId} {c : ConnId} (up : w.Up c)
    (closed : .handleClose ∈ (w.conns c).history) : w.OutcomeOk l c (w.closeCallback l c) := by
  have later := w.extends_setConn c (w.conns c).conn [.closeCallback] rfl rfl
  have removal : (w.setConn c (w.conns c).conn [.closeCallback]).TaskOk
      (.removeConnectionInLoop c) := by
    refine ⟨up.1, nofun, ?_⟩
    rintro _ ⟨⟩
    refine ⟨up.mono later, later.history c up.1 _ closed, ?_⟩
    rw [setConn_self]
    simp
  rw [closeCallback]
  split
  · rename_i base
    refine .of_up up rfl rfl ?_ (List.forall_mem_nil _)
      (List.Subset.refl _)
    exact List.forall_mem_singleton.mpr ⟨removal, fun _ => base.symm⟩
  · refine .of_up up rfl rfl (List.forall_mem_nil _) ?_
      (List.Subset.refl _)
    exact List.forall_mem_singleton.mpr ⟨removal, rfl⟩

theorem handleRead_ok {w : World} {l : LoopId} {c : ConnId} {result : ReadResult} (up : w.Up c)
    (here : (w.conns c).conn.loop = l) : w.OutcomeOk l c (w.handleRead c result) := by
  have loop : ((w.conns c).conn.handleRead result).1.loop = (w.conns c).conn.loop := by
    rw [TcpConnection.handleRead_fst]
  have name : ((w.conns c).conn.handleRead result).1.name = (w.conns c).conn.name := by
    rw [TcpConnection.handleRead_fst]
  rw [handleRead]
  dsimp only
  split
  · split
    · refine .of_up up loop name ?_ (List.forall_mem_nil _)
        (List.Subset.refl _)
      rw [List.forall_mem_singleton]
      exact user_ok (up.mono (w.extends_setConn c _ _ loop name))
    · exact .quiet up loop name
  · exact handleClose_ok up here loop name
  · exact .quiet up loop name

theorem sendInLoop_ok {w : World} {l : LoopId} {c : ConnId} (data : List Byte)
    (result : WriteResult) (up : w.Up c) : w.OutcomeOk l c (w.sendInLoop c data result) := by
  have loop := (w.conns c).conn.sendInLoop_loop data result
  have name := (w.conns c).conn.sendInLoop_name data result
  refine .of_up up loop name (List.forall_mem_nil _) ?_
    (List.Subset.refl _)
  have queued := functor_ok (up.mono (w.extends_setConn c _ (w.sendInLoop c data result).events
    loop name)) ((w.conns c).conn.sendInLoop data result).2
  rwa [setConn_self] at queued

theorem handleWrite_ok {w : World} {l : LoopId} {c : ConnId} {result : WriteResult}
    (fits : result.Fits (w.conns c).conn.outputBuffer.readableBytes) (up : w.Up c) :
    w.OutcomeOk l c (w.handleWrite c result) := by
  have loop := (w.conns c).conn.handleWrite_loop fits
  have name := (w.conns c).conn.handleWrite_name fits
  refine .of_up up loop name (List.forall_mem_nil _) ?_
    (List.Subset.refl _)
  have queued := functor_ok (up.mono (w.extends_setConn c _ (w.handleWrite c result).events
    loop name)) ((w.conns c).conn.handleWrite result).2
  rwa [setConn_self] at queued

theorem notify_ok {w : World} {l : LoopId} {c : ConnId} (up : w.Up c) :
    w.OutcomeOk l c (w.notify c) := by
  refine .of_up up rfl rfl ?_ (List.forall_mem_nil _)
    (List.Subset.refl _)
  intro frame member
  simp only [notify] at member
  split at member
  · rw [List.mem_singleton] at member
    exact member ▸ user_ok (up.mono (w.extends_setConn c _ _ rfl rfl))
  · exact absurd member List.not_mem_nil

/-- More events do not spoil an outcome. -/
theorem OutcomeOk.event {w : World} {l : LoopId} {c : ConnId} {outcome : Outcome}
    (ok : w.OutcomeOk l c outcome) (event : Event) :
    w.OutcomeOk l c { outcome with events := event :: outcome.events } := by
  have later : (w.setConn c outcome.conn outcome.events).Extends
      (w.setConn c outcome.conn (event :: outcome.events)) := by
    refine ⟨Nat.le_refl _, fun c' _ => ?_, fun c' _ => ?_, fun c' _ other member => ?_⟩ <;>
      rw [setConn_conns, Function.update_apply] at * <;> split <;> simp_all
    rcases member with old | new
    · exact .inl old
    · exact .inr (.inr new)
  refine ⟨ok.known, ok.loop, ok.name, fun down => ok.untouched fun up => down (up.mono later),
    fun frame member => FrameOk.mono later (ok.frames frame member), fun task member => ?_,
    ok.connections⟩
  obtain ⟨taskOk, target⟩ := ok.queued task member
  exact ⟨taskOk.mono later, (later.target taskOk.1).trans target⟩

/-- Every job that stands where it belongs has an outcome that does. -/
theorem perform_ok {w : World} {l : LoopId} {kernel : Kernel} {job : Job} (placed : w.Placed)
    (ok : w.JobOk l job) (here : w.RunsHere l job) (fits : w.KernelFits kernel job) :
    w.OutcomeOk l job.conn (w.perform l kernel job) := by
  cases job with
  | task task =>
      cases task with
      | connectEstablished c => exact connectEstablished_ok ok.1.1 here
      | connectDestroyed c => exact connectDestroyed_ok ok.1.1 (placed.conns c) here
      | removeConnectionInLoop c => exact removeConnectionInLoop_ok (ok.1.2.2 c rfl).1
      | sendInLoop c data caller => exact sendInLoop_ok data kernel.write (ok.1.2.1 rfl)
      | shutdownInLoop c =>
          exact .quiet (ok.1.2.1 rfl) (by rw [TcpConnection.shutdownInLoop_eq]; rfl)
            (by rw [TcpConnection.shutdownInLoop_eq]; rfl)
      | writeCompleteCallback c => exact notify_ok (ok.1.2.1 rfl)
      | highWaterMarkCallback c total => exact notify_ok (ok.1.2.1 rfl)
      | user c =>
          have up : w.Up c := ok.1.2.1 rfl
          refine .of_up up rfl rfl ?_ (List.forall_mem_nil _)
            (List.Subset.refl _)
          intro frame member
          rw [perform, runTask, List.mem_singleton] at member
          exact member ▸ user_ok (up.mono (w.extends_setConn c _ _ rfl rfl))
  | callback callback c =>
      refine OutcomeOk.event ?_ (.handler l callback)
      cases callback with
      | close => exact handleClose_ok ok.1 ok.2 rfl rfl
      | error => exact .quiet ok.1 rfl rfl
      | read => exact handleRead_ok ok.1 ok.2
      | write => exact handleWrite_ok fits ok.1
  | releaseGuard c => exact .quiet ok.1 rfl rfl
  | closeCallback c => exact closeCallback_ok ok.1 ok.2.2
  | removeChannel c =>
      have later := w.extends_setConn c (w.conns c).conn.removeChannel [.connectDestroyedReturned]
        rfl rfl
      refine ⟨ok.1, rfl, rfl, fun down => ?_, List.forall_mem_nil _,
        List.forall_mem_nil _, List.Subset.refl _⟩
      exact ⟨PolledChannel.remove_index _,
        ((placed.conns c).untouched fun up => down (up.mono later)).2⟩

/-! ### Every action -/

/-- A fresh connection is known, and its number belongs to no one yet. -/
theorem Placed.addConnection {w : World} (placed : w.Placed) (ioLoop : LoopId) (name : String) :
    w.Extends (w.addConnection ioLoop name) ∧ (w.addConnection ioLoop name).Placed := by
  have old : ∀ c < w.created, (w.addConnection ioLoop name).conns c = w.conns c :=
    fun c before => w.addConnection_other ioLoop name (Nat.ne_of_lt before)
  have new := w.addConnection_new ioLoop name
  have later : w.Extends (w.addConnection ioLoop name) := by
    refine ⟨Nat.le_succ _, fun c before => by rw [old c before],
      fun c before => by rw [old c before], fun c before event member => ?_⟩
    rw [old c before]
    exact member
  refine ⟨later, fun l => (placed.loops l).mono later, fun t => (placed.threads t).mono later,
    fun c => ?_, fun entry c member => ?_⟩
  · rcases Nat.lt_trichotomy c w.created with before | same | beyond
    · refine ⟨fun unborn => absurd before (Nat.not_lt_of_le (Nat.le_of_succ_le unborn)),
        fun down => ?_⟩
      rw [old c before]
      exact (placed.conns c).untouched fun up => down (up.mono later)
    · subst same
      refine ⟨fun _ => by rw [new], fun _ => ?_⟩
      rw [new]
      exact ⟨rfl, nofun⟩
    · have same := w.addConnection_other ioLoop name (Nat.ne_of_gt beyond)
      have unborn := Nat.le_of_lt beyond
      refine ⟨fun _ => ?_, fun _ => ?_⟩
      · rw [same]
        exact (placed.conns c).unborn unborn
      · rw [same]
        exact (placed.conns c).untouched fun up => absurd up.1 (Nat.not_lt_of_le unborn)
  · rcases ConnectionMap.mem_emplace member with same | before
    · cases same
      exact ⟨Nat.lt_succ_self _, by rw [new]; rfl⟩
    · obtain ⟨known, named⟩ := placed.entries entry c before
      exact ⟨Nat.lt_succ_of_lt known, (later.name c known).trans named⟩

theorem Placed.newConnection {w : World} (placed : w.Placed) (l : LoopId) (named : Bool) :
    (w.newConnection l named).Placed := by
  have counted : w.countAccepted.Placed :=
    placed.of_same rfl rfl placed.loops placed.threads (by simp [countAccepted])
  cases named with
  | false => exact counted
  | true =>
      obtain ⟨_, added⟩ := counted.addConnection (getNextLoop w.server).1
        (nextName (getNextLoop w.server).2)
      have new : (w.countAccepted.addConnection (getNextLoop w.server).1
          (nextName (getNextLoop w.server).2)).target (.connectEstablished w.created) =
            (getNextLoop w.server).1 := by
        change ((World.addConnection _ _ _).conns w.countAccepted.created).conn.loop = _
        rw [addConnection_new]
        rfl
      have ok : (w.countAccepted.addConnection (getNextLoop w.server).1
          (nextName (getNextLoop w.server).2)).TaskOk (.connectEstablished w.created) :=
        ⟨Nat.lt_succ_self _, nofun, nofun⟩
      have run := added.runInLoop (l := l) ok
      rw [new] at run
      exact run

/-- The frames that the dispatch of an event for connection `c` can leave. -/
inductive Dispatches (c : ConnId) : Frame → Prop where
  | callback (callback : Channel.Callback) : Dispatches c (.job (.callback callback c))
  | releaseGuard : Dispatches c (.job (.releaseGuard c))

theorem dispatch_frames (w : World) (c : ConnId) (revents : EpollEvents) :
    ∀ frame ∈ w.dispatch c revents, Dispatches c frame := by
  have callbacks : ∀ frame ∈ (Channel.handleEventWithGuard revents).map
      (fun callback => Frame.job (.callback callback c)), Dispatches c frame := by
    intro frame member
    obtain ⟨callback, _, rfl⟩ := List.mem_map.mp member
    exact .callback callback
  intro frame member
  simp only [dispatch] at member
  split at member
  · split at member
    · rcases List.mem_append.mp member with callback | release
      · exact callbacks frame callback
      · exact List.mem_singleton.mp release ▸ .releaseGuard
    · exact absurd member List.not_mem_nil
  · exact callbacks frame member

theorem dispatch_ok {w : World} {l : LoopId} {c : ConnId} (up : w.Up c)
    (here : (w.conns c).conn.loop = l) (revents : EpollEvents) :
    ∀ frame ∈ w.dispatch c revents, w.FrameOk l frame := by
  intro frame member
  cases w.dispatch_frames c revents frame member with
  | callback callback => exact ⟨up, here⟩
  | releaseGuard => exact ⟨up, here⟩

/-- The frames of the later steps of `~TcpServer`. -/
theorem mem_memberFrames {n : Nat} {frame : Frame}
    (member : frame ∈ (List.range n).flatMap
      (fun i => [Frame.quitThread (i + 1), .joinThread (i + 1)]) ++ [Frame.destroyAcceptor]) :
    (∃ l, frame = .quitThread l) ∨ (∃ l, frame = .joinThread l) ∨ frame = .destroyAcceptor := by
  rcases List.mem_append.mp member with thread | last
  · obtain ⟨i, _, frames⟩ := List.mem_flatMap.mp thread
    simp only [List.mem_cons, List.not_mem_nil, or_false] at frames
    rcases frames with rfl | rfl
    · exact .inl ⟨_, rfl⟩
    · exact .inr (.inl ⟨_, rfl⟩)
  · exact .inr (.inr (List.mem_singleton.mp last))

/-- Every copy at hand for user code is of a connection that is up. -/
theorem LoopOk.copies {w : World} {l : LoopId} {loop : Loop} (ok : w.LoopOk l loop) :
    ∀ c ∈ loop.copies, w.Up c := by
  intro c member
  obtain ⟨held, rest, top, atHand⟩ := copies_eq member
  exact ok.stack (.user held) (by rw [top]; exact List.mem_cons_self) c atHand

/-- Changing the state or a field that no fact reads. -/
theorem Placed.setConn_up {w : World} (placed : w.Placed) {c : ConnId} (up : w.Up c)
    (conn : TcpConnection) (loop : conn.loop = (w.conns c).conn.loop)
    (name : conn.name = (w.conns c).conn.name) :
    (w.setConn c conn []).Placed ∧ w.Extends (w.setConn c conn []) :=
  have later := w.extends_setConn c conn [] loop name
  ⟨placed.setConn up.1 loop name fun down => absurd (up.mono later) down, later⟩

theorem Placed.handleEvent {w : World} (placed : w.Placed) (l : LoopId) (named : Bool) :
    (w.next (.handleEvent l named)).Placed := by
  have ok := placed.loops l
  rw [World.next]
  split
  · exact placed
  · rename_i first rest split
    have popped : (w.setLoop l { w.loops l with activeChannels := rest }).Placed :=
      placed.setLoop ⟨ok.stack, ok.waiting, fun c revents member =>
        ok.active c revents (by rw [split]; exact List.mem_cons_of_mem _ member), ok.between,
        ok.ended⟩
    cases first with
    | acceptor =>
        rw [World.handleEvent]
        split
        · exact popped
        · exact popped.newConnection l named
    | channel c revents =>
        obtain ⟨up, here⟩ := ok.active c revents (by rw [split]; exact List.mem_cons_self)
        have later : w.Extends (w.setLoop l { w.loops l with activeChannels := rest }) :=
          .of_same rfl rfl
        exact popped.setLoop ((popped.loops l).push (dispatch_ok (up.mono later) here revents))

theorem Placed.destroyMember {w : World} (placed : w.Placed) :
    (w.next .destroyMember).Placed := by
  have popped := placed.setLoop (placed.loops 0).pop
  rw [World.next, World.destroyMember]
  split
  · refine placed.setLoop ((placed.loops 0).pop.push fun frame member => ?_)
    rcases World.mem_memberFrames member with ⟨l, rfl⟩ | ⟨l, rfl⟩ | rfl <;> rfl
  · rename_i l rest top
    exact popped.setLoop ⟨(popped.loops l).stack, (popped.loops l).waiting,
      (popped.loops l).active, (popped.loops l).between, (popped.loops l).ended⟩
  · exact popped
  · have gone : ({ w with server := { w.server with destroyed := true } } : World).Placed :=
      placed.of_same rfl rfl placed.loops placed.threads (List.Subset.refl _)
    exact gone.setLoop (gone.loops 0).pop
  · exact placed

/-- The step lemma. -/
theorem Placed.next {w : World} (placed : w.Placed) {a : Action} (guard : w.Enabled a) :
    (w.next a).Placed := by
  have stack := fun l => (placed.loops l).stack
  have waiting := fun l => (placed.loops l).waiting
  have active := fun l => (placed.loops l).active
  have between := fun l => (placed.loops l).between
  have ended := fun l => (placed.loops l).ended
  have exists' {l : LoopId} {phase : Phase} (here : (w.loops l).phase = phase)
      (running : phase ≠ .stopped) {P : Prop} (gone : (w.loops l).destroyed = true) : P :=
    absurd (here.symm.trans (ended l gone).2) running
  cases a with
  | enterLoop l =>
      exact placed.setLoop ⟨stack l, waiting l, active l, fun idle => absurd rfl idle,
        exists' guard.2.1 (by decide)⟩
  | poll l found =>
      refine placed.setLoop ⟨stack l, waiting l, fun c revents member => ?_,
        fun _ => between l (by simp [guard.2.1]), exists' guard.2.1 (by decide)⟩
      obtain ⟨known, here, polled⟩ := guard.2.2.1 _ member
      have registered := (Bool.and_eq_true_iff.mp polled).1
      refine ⟨?_, here⟩
      by_contra down
      rw [PolledChannel.registered_iff, ((placed.conns c).untouched down).1] at registered
      cases registered
  | handleEvent l named => exact placed.handleEvent l named
  | doPendingFunctors l =>
      refine placed.setLoop ⟨stack l, fun task member => waiting l task ?_, active l,
        fun idle => absurd rfl idle, exists' guard.2.1 (by decide)⟩
      rwa [BatchQueue.waiting_swap (between l (by simp [guard.2.1])).1] at member
  | endBatch l =>
      exact placed.setLoop ⟨stack l, waiting l, active l, fun _ => ⟨guard.2.2.2, rfl⟩,
        exists' guard.2.1 (by decide)⟩
  | destroyLoop l =>
      exact placed.setLoop
        ⟨stack l, waiting l, active l, between l, fun _ => ⟨guard.2.1, guard.2.2.1⟩⟩
  | run l kernel =>
      obtain ⟨_, job, current, here, fits⟩ := guard
      rw [World.next]
      split
      · rename_i found loop fetched
        obtain rfl : found = job := Option.some.inj ((current_of_fetch fetched).symm.trans current)
        obtain ⟨jobOk, loopOk⟩ := (placed.loops l).fetch fetched
        exact placed.commit loopOk (perform_ok placed jobOk here fits)
      · exact placed
  | submit l =>
      rw [World.next]
      split
      · rename_i task submitted
        obtain ⟨top, elsewhere⟩ := submitted_eq submitted
        have ok := stack l _ (List.mem_of_mem_head? top)
        have later : w.Extends (w.setLoop l (w.loops l).pop) := .of_same rfl rfl
        exact (placed.setLoop (placed.loops l).pop).queueOne (ok.1.mono later)
      · exact placed
  | userSend l c data =>
      have up := (placed.loops l).copies c guard.2
      rw [World.next]
      split
      · exact placed.setLoop ((placed.loops l).pushOne (up.callOk rfl))
      · exact placed
  | userShutdown l c =>
      have up := (placed.loops l).copies c guard.2
      obtain ⟨set, later⟩ := placed.setConn_up up (w.conns c).conn.exchangeDisconnecting.1
        rfl rfl
      simp only [World.next]
      split
      · exact set.setLoop ((set.loops l).pushOne ((up.mono later).callOk rfl))
      · exact set
  | userSetHighWaterMarkCallback l c mark =>
      exact (placed.setConn_up ((placed.loops l).copies c guard.2)
        ((w.conns c).conn.setHighWaterMarkCallback mark) rfl rfl).1
  | userRetrieve l c len =>
      exact (placed.setConn_up ((placed.loops l).copies c guard.2) { (w.conns c).conn with
        inputBuffer := (w.conns c).conn.inputBuffer.retrieve len } rfl rfl).1
  | userTake l t c =>
      refine placed.setLoop ((placed.loops l).pop.pushOne fun other held => ?_)
      rcases List.mem_cons.mp held with rfl | old
      · exact (placed.threads t).copies other guard.2.2.2
      · exact (placed.loops l).copies other old
  | userGive l t c =>
      refine placed.setThread ⟨fun other held => ?_, (placed.threads t).calling⟩
      rcases List.mem_cons.mp held with rfl | old
      · exact (placed.loops l).copies other guard.2.2
      · exact (placed.threads t).copies other old
  | userReturn l => exact placed.setLoop (placed.loops l).pop
  | copy t other c =>
      refine placed.setThread ⟨fun c' held => ?_, (placed.threads other).calling⟩
      rcases List.mem_cons.mp held with rfl | old
      · exact (placed.threads t).copies c' guard.2.2
      · exact (placed.threads other).copies c' old
  | drop t c =>
      exact placed.setThread
        ⟨fun c' held => (placed.threads t).copies c' (List.mem_of_mem_erase held),
          (placed.threads t).calling⟩
  | send t c data =>
      have up := (placed.threads t).copies c guard.2.2
      rw [World.next]
      split
      · refine placed.setThread ⟨(placed.threads t).copies, ?_⟩
        rintro _ ⟨⟩
        exact ⟨rfl, up⟩
      · exact placed
  | shutdown t c =>
      have up := (placed.threads t).copies c guard.2.2
      obtain ⟨set, later⟩ := placed.setConn_up up (w.conns c).conn.exchangeDisconnecting.1
        rfl rfl
      simp only [World.next]
      split
      · refine set.setThread ⟨(set.threads t).copies, ?_⟩
        rintro _ ⟨⟩
        exact ⟨rfl, up.mono later⟩
      · exact set
  | queueUser t c =>
      refine placed.setThread ⟨(placed.threads t).copies, ?_⟩
      rintro _ ⟨⟩
      exact ⟨rfl, (placed.threads t).copies c guard.2.2⟩
  | queueInLoop t =>
      rw [World.next]
      split
      · rename_i task calling
        obtain ⟨plain, up⟩ := (placed.threads t).calling task calling
        have free : (w.setThread t { w.threads t with calling := none }).Placed :=
          placed.setThread ⟨(placed.threads t).copies, by simp⟩
        have later : w.Extends (w.setThread t { w.threads t with calling := none }) :=
          .of_same rfl rfl
        exact free.queueOne ((up.mono later).taskOk plain)
      · exact placed
  | quit l => exact placed.setLoop ⟨stack l, waiting l, active l, between l, ended l⟩
  | destroyServer =>
      have begun : ({ w with server := { w.server with destroying := true } } : World).Placed :=
        placed.of_same rfl rfl placed.loops placed.threads (List.Subset.refl _)
      exact begun.setLoop ((begun.loops 0).pushOne rfl)
  | destroyConnection c =>
      have known := (placed.entries _ c guard.2).1
      have erased : (w.setConnections (w.server.connections.erase (w.conns c).conn.name)).Placed :=
        placed.setConnections (List.filter_subset_self _)
      have destruction : (w.setConnections (w.server.connections.erase
          (w.conns c).conn.name)).TaskOk (.connectDestroyed c) := by
        refine ⟨known, ?_, ?_⟩
        · rintro ⟨⟩
        · rintro _ ⟨⟩
      exact erased.runInLoop destruction
  | destroyMember => exact placed.destroyMember

end World

theorem placed {w : World} (reachable : server.Reachable w) : w.Placed := by
  refine reachable.invariant (I := World.Placed) ?_ fun w a _ placed guard => placed.next guard
  rintro w ⟨name, ipPort, callbacks, ioLoops, users, rfl⟩
  refine ⟨fun l => ⟨nofun, nofun, nofun, fun _ => ⟨rfl, rfl⟩, nofun⟩, fun t => ⟨nofun, nofun⟩,
    fun c => ⟨fun _ => rfl, fun _ => ⟨rfl, nofun⟩⟩, nofun⟩

end EduMuduo

/-
Module: EduMuduo.Proofs.ClosedConnection
Layer: Proofs
Purpose: What can still happen to a connection after `handleClose`.  Its state is never
  `Connected` again, so `send` refuses; but a functor that `send` queued before the close does not
  test the state, writes to the descriptor or enables writing, and `enableWriting` registers the
  channel whatever its index.  A second `handleClose` registers it as well, because `disableAll`
  adds a channel that is not in the interest list.  Where neither happens, the connection stays off
  the wire and out of the poller.
Imports: EduMuduo.Proofs.Establishment
Trusted boundary: none
Main exports: World.Closed, closed_up, closed_unconnected, QuietWhenClosed,
  closed_connection_stays_off, queued_send_writes_after_close
-/
import EduMuduo.Proofs.Establishment

namespace EduMuduo

open Library

namespace World

/-- `handleClose` has run. -/
def Closed (w : World) (c : ConnId) : Prop := .handleClose ∈ (w.conns c).history

instance (w : World) (c : ConnId) : Decidable (w.Closed c) := inferInstanceAs (Decidable (_ ∈ _))

theorem Closed.known {w : World} (placed : w.Placed) {c : ConnId} (closed : w.Closed c) :
    c < w.created := by
  by_contra beyond
  have history := (placed.conns c).unborn (Nat.le_of_not_lt beyond)
  rw [Closed, history] at closed
  exact absurd closed List.not_mem_nil

end World

/-- A closed connection had been established. -/
theorem closed_up {w : World} (reachable : server.Reachable w) {c : ConnId}
    (closed : w.Closed c) : w.Up c := by
  revert closed
  refine reachable.invariant (I := fun w => w.Closed c → w.Up c) ?_ ?_
  · rintro w ⟨name, ipPort, callbacks, ioLoops, users, rfl⟩ closed
    exact absurd closed List.not_mem_nil
  · intro w a before up guard closed
    have known := closed.known ((placed before).next guard)
    have later := (placed before).next_extends guard
    by_cases new : c = w.created
    · have history := (placed before).next_history_new guard
      rw [World.Closed, new] at closed
      rw [show ((server.next w a).conns w.created).history = [] from history] at closed
      exact absurd closed List.not_mem_nil
    · rcases World.mem_next_history guard closed new with
        old | ⟨l, kernel, job, running, current, about, here, emits⟩
      · exact (up old).mono later
      · have ok := (placed before).current_ok current
        cases emits with
        | closed callback c' closing =>
            obtain rfl : c' = c := about
            exact ok.1.mono later

/-- After `handleClose` the state is never `Connected` again. -/
theorem closed_unconnected {w : World} (reachable : server.Reachable w) {c : ConnId}
    (closed : w.Closed c) : (w.conns c).conn.state ≠ .connected := by
  revert closed
  refine reachable.invariant
    (I := fun w => w.Closed c → (w.conns c).conn.state ≠ .connected) ?_ ?_
  · rintro w ⟨name, ipPort, callbacks, ioLoops, users, rfl⟩ closed
    exact absurd closed List.not_mem_nil
  · intro w a before unconnected guard
    have change := World.next_change guard c
    rw [World.Closed]
    change .handleClose ∈ ((w.next a).conns c).history →
      ((w.next a).conns c).conn.state ≠ .connected
    generalize (w.next a).conns c = tracked at change
    intro closed
    cases change with
    | same => exact unconnected closed
    | constructed new => exact absurd closed List.not_mem_nil
    | performed l kernel job running current about here fits after events conn log deed =>
        subst about
        have old : .handleClose ∉ events → w.Closed job.conn :=
          (List.mem_append.mp closed).resolve_right
        cases deed with
        | establish c =>
            have up := closed_up before (old (by split <;> simp))
            exact absurd up ((establishToken before).not_up_of_current current)
        | destroy c => simp
        | close callback c input closing => exact nofun
        | read c input events received =>
            refine unconnected (old ?_)
            rcases received with rfl | ⟨rfl, _⟩ <;> simp
        | send c data caller =>
            rw [TcpConnection.sendInLoop_state]
            exact unconnected (old (by simp))
        | shutdown c =>
            rw [TcpConnection.shutdownInLoop_eq]
            exact unconnected (old (by simp))
        | write c =>
            intro connected
            refine unconnected (old (by simp)) ?_
            exact ((w.conns c).conn.handleWrite_state fits).symm.trans connected
        | remove c => exact unconnected (old (by simp))
        | other job => exact unconnected (old (by simp))
        | error c => exact unconnected (old (by simp))
        | closeCallback c => exact unconnected (old (by simp))
        | removeChannel c => exact unconnected (old (by simp))
    | exchanged call => exact nofun
    | marked mark => exact unconnected closed
    | retrieved len => exact unconnected closed

/-! ### When a closed connection stays off -/

/-- What a functor of `send` is to send. -/
def Job.message? : Job → Option (List Byte)
  | .task (.sendInLoop _ data _) => some data
  | _ => none

/-- The job runs `handleClose`. -/
def Kernel.closes (kernel : Kernel) : Job → Bool
  | .callback .close _ => true
  | .callback .read _ => kernel.read = .data []
  | _ => false

/-- `sendInLoop` keeps nothing for a later write: it writes all of the data, gives up, or has no
data to begin with. -/
def TcpConnection.LeavesNothing (self : TcpConnection) (data : List Byte) (result : WriteResult) :
    Prop :=
  if self.outputBuffer.readableBytes = 0 then
    match result with
    | .accepted n => data.length ≤ n
    | .failed errno => isBlockingError errno = false ∨ data = []
  else data = []

instance (self : TcpConnection) (data : List Byte) :
    ∀ result, Decidable (self.LeavesNothing data result)
  | .accepted n => inferInstanceAs (Decidable
      (if self.outputBuffer.readableBytes = 0 then data.length ≤ n else data = []))
  | .failed errno => inferInstanceAs (Decidable
      (if self.outputBuffer.readableBytes = 0 then
        TcpConnection.isBlockingError errno = false ∨ data = [] else data = []))

theorem TcpConnection.LeavesNothing.channel {self : TcpConnection} {data : List Byte}
    {result : WriteResult} (leaves : self.LeavesNothing data result)
    (idle : self.channel.isWriting = false) :
    (self.sendInLoop data result).1.channel = self.channel := by
  unfold LeavesNothing at leaves
  cases self.sendInLoop_effect data result with
  | written _ _ _ _ _ same => rw [same]
  | discarded _ _ _ _ _ same => rw [same]
  | nothing _ _ same => rw [same]
  | split _ drained n short answer same =>
      rw [if_pos (self.outputBuffer.readableBytes_eq_zero_iff.mpr drained)] at leaves
      rcases answer with rfl | ⟨rfl, errno, rfl, blocking⟩
      · exact absurd leaves (Nat.not_le_of_lt short)
      · rcases leaves with hard | none
        · exact absurd blocking (by simp [hard])
        · simp [none] at short
  | buffered pending some same =>
      rcases pending with writing | pending
      · exact absurd writing (by simp [idle])
      · rw [if_neg (mt self.outputBuffer.readableBytes_eq_zero_iff.mp pending)] at leaves
        exact absurd leaves some

namespace World

/-- No job asks for events on a closed connection, and `handleClose` finds the channel in the
interest list, so that `disableAll` takes it out. -/
def KeepsOff (w : World) (kernel : Kernel) (job : Job) : Prop :=
  (∀ data ∈ job.message?, w.Closed job.conn →
    (w.conns job.conn).conn.LeavesNothing data kernel.write) ∧
  (kernel.closes job = true → (w.conns job.conn).conn.channel.registered = true)

instance (w : World) (kernel : Kernel) (job : Job) : Decidable (w.KeepsOff kernel job) :=
  inferInstanceAs (Decidable (_ ∧ _))

/-- Without write interest and out of the interest list. -/
structure Off (conn : TcpConnection) : Prop where
  idle : conn.channel.isWriting = false
  unregistered : conn.channel.registered = false

theorem Off.of_channel {conn after : TcpConnection} (off : Off conn)
    (same : after.channel = conn.channel) : Off after :=
  ⟨same ▸ off.idle, same ▸ off.unregistered⟩

theorem unregistered_of_index {p : PolledChannel ConnId} (index : p.channel.index ≠ .kAdded) :
    p.registered = false := by
  rw [← Bool.not_eq_true, PolledChannel.registered_iff]
  exact index

/-- `handleClose` turns a registered channel off and leaves it in `channels_`. -/
theorem off_handleClose {conn : TcpConnection} (registered : conn.channel.registered = true) :
    Off conn.handleClose := by
  refine ⟨PolledChannel.change_isWriting _ _, unregistered_of_index ?_⟩
  rw [PolledChannel.registered_iff] at registered
  rw [TcpConnection.handleClose, PolledChannel.disableAll_index, if_pos registered]
  exact nofun

/-- What a job makes of the channel of a connection that is closed behind it. -/
theorem Deed.off {w : World} {l : LoopId} {kernel : Kernel} {job : Job} {after : TcpConnection}
    {events : List Event} (deed : Deed l kernel (w.conns job.conn).conn job after events)
    (keeps : w.KeepsOff kernel job) (fresh : job ≠ .task (.connectEstablished job.conn))
    (unconnected : w.Closed job.conn → (w.conns job.conn).conn.state ≠ .connected)
    (off : w.Closed job.conn → Off (w.conns job.conn).conn)
    (closed : .handleClose ∈ (w.conns job.conn).history ++ events) :
    Off after ∧ (w.Closed job.conn →
      after.channel.mapped = true → (w.conns job.conn).conn.channel.mapped = true) := by
  have old : .handleClose ∉ events → w.Closed job.conn := (List.mem_append.mp closed).resolve_right
  cases deed with
  | establish c => exact absurd rfl fresh
  | destroy c =>
      have before := old (by split <;> simp)
      rw [TcpConnection.connectDestroyed_of_ne _ (unconnected before)]
      exact ⟨(off before).of_channel rfl, fun _ => id⟩
  | send c data caller =>
      have before := old (by simp)
      have channel := (keeps.1 data rfl before).channel (off before).idle
      exact ⟨(off before).of_channel channel, fun _ mapped => channel ▸ mapped⟩
  | shutdown c =>
      have before := old (by simp)
      rw [TcpConnection.shutdownInLoop_eq]
      exact ⟨(off before).of_channel rfl, fun _ => id⟩
  | close callback c input closing =>
      have registered : (w.conns c).conn.channel.registered = true := by
        rcases closing with rfl | ⟨rfl, nothing⟩
        · exact keeps.2 rfl
        · exact keeps.2 (decide_eq_true nothing)
      refine ⟨off_handleClose registered, fun before => ?_⟩
      exact absurd ((off before).unregistered.symm.trans registered) Bool.false_ne_true
  | read c input events received =>
      have before := old (by rcases received with rfl | ⟨rfl, _⟩ <;> simp)
      exact ⟨(off before).of_channel rfl, fun _ => id⟩
  | write c =>
      have before := old (by simp)
      rw [TcpConnection.handleWrite_idle _ (off before).idle]
      exact ⟨off before, fun _ => id⟩
  | removeChannel c =>
      have before := old (by simp)
      refine ⟨⟨?_, unregistered_of_index ?_⟩, fun _ mapped => ?_⟩
      · exact (PolledChannel.remove_isWriting _).trans (off before).idle
      · rw [TcpConnection.removeChannel, PolledChannel.remove_index]
        exact nofun
      · rw [PolledChannel.mapped_iff, TcpConnection.removeChannel,
          PolledChannel.remove_index] at mapped
        exact absurd rfl mapped
  | remove c | other job | error c | closeCallback c => exact ⟨off (old (by simp)), fun _ => id⟩

end World

/-- The same for a step: the connection is off behind it if it was off before and is closed, and
the step does not put the channel back into `channels_`. -/
theorem next_off {w : World} (reachable : server.Reachable w) {a : Action} (guard : w.Enabled a)
    (keeps : w.OnJobs World.KeepsOff a) {c : ConnId}
    (off : w.Closed c → World.Off (w.conns c).conn) (closed : (w.next a).Closed c) :
    World.Off ((w.next a).conns c).conn ∧ (w.Closed c →
      ((w.next a).conns c).conn.channel.mapped = true →
        (w.conns c).conn.channel.mapped = true) := by
  rw [World.Closed] at closed
  have change := World.next_change guard c
  generalize (w.next a).conns c = tracked at change closed ⊢
  cases change with
  | same => exact ⟨off closed, fun _ => id⟩
  | constructed new => exact absurd closed List.not_mem_nil
  | performed l kernel job running current about here fits after events conn log deed =>
      subst about running
      refine deed.off (keeps job current) ?_ (closed_unconnected reachable) off closed
      intro fresh
      rw [fresh] at current
      have down := (establishToken reachable).not_up_of_current current
      rcases List.mem_append.mp closed with before | emitted
      · exact down (closed_up reachable before)
      · have emits := deed.emits emitted
        rw [fresh] at emits
        cases emits
  | exchanged call => exact ⟨(off closed).of_channel rfl, fun _ => id⟩
  | marked mark => exact ⟨(off closed).of_channel rfl, fun _ => id⟩
  | retrieved len => exact ⟨(off closed).of_channel rfl, fun _ => id⟩

/-- As long as no job asks for events on a closed connection, every closed connection is off. -/
theorem closed_off {w : World}
    (reachable : (server.restrict (World.OnJobs World.KeepsOff)).Reachable w) {c : ConnId} :
    w.Closed c → World.Off (w.conns c).conn := by
  refine reachable.invariant (I := fun w => w.Closed c → World.Off (w.conns c).conn) ?_ ?_
  · rintro w ⟨name, ipPort, callbacks, ioLoops, users, rfl⟩ closed
    exact absurd closed List.not_mem_nil
  · intro w a before off guard closed
    exact (next_off before.of_restrict guard.1 guard.2 off closed).1

/-! ### No writing either -/

namespace World

/-- Besides, a functor of `send` that runs on a closed connection finds other bytes pending. -/
def QuietWhenClosed (w : World) (kernel : Kernel) (job : Job) : Prop :=
  w.KeepsOff kernel job ∧ ∀ data ∈ job.message?, w.Closed job.conn →
    (w.conns job.conn).conn.outputBuffer.readableBytes ≠ 0

instance (w : World) (kernel : Kernel) (job : Job) : Decidable (w.QuietWhenClosed kernel job) :=
  inferInstanceAs (Decidable (_ ∧ _))

/-- Action `a` writes nothing to the descriptor of the connection, leaves its channel out of the
interest list, and does not put it back into `channels_`. -/
structure StaysOff (w : World) (c : ConnId) (a : Action) : Prop where
  writes : ((w.next a).conns c).conn.socket.writes = (w.conns c).conn.socket.writes
  unregistered : ((w.next a).conns c).conn.channel.registered = false
  unmapped : ((w.next a).conns c).conn.channel.mapped = true →
    (w.conns c).conn.channel.mapped = true

/-- A job that is quiet when closed does not write to a closed connection. -/
theorem Deed.writes {w : World} {l : LoopId} {kernel : Kernel} {job : Job} {after : TcpConnection}
    {events : List Event} (deed : Deed l kernel (w.conns job.conn).conn job after events)
    (quiet : w.QuietWhenClosed kernel job) (closed : w.Closed job.conn)
    (unconnected : (w.conns job.conn).conn.state ≠ .connected)
    (off : Off (w.conns job.conn).conn) :
    after.socket.writes = (w.conns job.conn).conn.socket.writes := by
  cases deed with
  | destroy c => rw [TcpConnection.connectDestroyed_of_ne _ unconnected]
  | send c data caller =>
      have pending := quiet.2 data rfl closed
      have leaves := quiet.1.1 data rfl closed
      unfold TcpConnection.LeavesNothing at leaves
      rw [if_neg pending] at leaves
      rw [TcpConnection.sendInLoop_nothing _ leaves pending]
  | shutdown c =>
      rw [TcpConnection.shutdownInLoop_eq]
      dsimp only
      split <;> rfl
  | write c => rw [TcpConnection.handleWrite_idle _ off.idle]
  | establish c | remove c | other job | close callback c input closing | error c
  | read c input events received | closeCallback c | removeChannel c => rfl

end World

/-- A closed connection stays off the wire and out of the poller, as long as no functor of `send`
finds it closed with something to send, and `handleClose` finds it registered. -/
theorem closed_connection_stays_off {w : World}
    (reachable : (server.restrict (World.OnJobs World.QuietWhenClosed)).Reachable w) {c : ConnId}
    (closed : w.Closed c) :
    (w.conns c).conn.channel.registered = false ∧
      ∀ a, (server.restrict (World.OnJobs World.QuietWhenClosed)).enabled w a →
        w.StaysOff c a := by
  have keeps : ∀ (w : World) (a : Action), w.OnJobs World.QuietWhenClosed a →
      w.OnJobs World.KeepsOff a := by
    intro w a quiet
    cases a with
    | run l kernel => exact fun job current => (quiet job current).1
    | _ => trivial
  have off := closed_off (reachable.restrict_mono keeps) closed
  refine ⟨off.unregistered, fun a guard => ?_⟩
  have later := (placed reachable.of_restrict).next_extends guard.1
  have still := later.history c (closed.known (placed reachable.of_restrict)) _ closed
  obtain ⟨after, unmapped⟩ := next_off reachable.of_restrict guard.1 (keeps w a guard.2)
    (fun _ => off) still
  refine ⟨?_, after.unregistered, unmapped closed⟩
  have change := World.next_change guard.1 c
  generalize (w.next a).conns c = tracked at change ⊢
  cases change with
  | same => rfl
  | constructed new =>
      exact absurd new (Nat.ne_of_lt (closed.known (placed reachable.of_restrict)))
  | performed l kernel job running current about here fits after events conn log deed =>
      subst about running
      exact deed.writes (guard.2 job current) closed
        (closed_unconnected reachable.of_restrict closed) off
  | exchanged call => rfl
  | marked mark => rfl
  | retrieved len => rfl

/-- Loop 1 polls a hangup of connection 0 and runs `handleClose` up to the user's callback. -/
def demoClosing : List Action :=
  [.poll 1 [.channel 0 EPOLLHUP], .handleEvent 1 true, .run 1 demoKernel]

/-- The hypotheses are met: behind `handleClose` a thread calls `send` in vain. -/
theorem closed_connection_stays_off_demo :
    (server.exec (demoServer 1 1) (demoOpening ++ demoClosing)).StaysOff 0 (.send 0 0 [1]) := by
  have admitted : (server.restrict (World.OnJobs World.QuietWhenClosed)).Admits (demoServer 1 1)
      (demoOpening ++ demoClosing) := by decide +kernel
  have reachable := admitted.reachable (demoServer_initial 1 1)
  rw [Machine.restrict_exec] at reachable
  refine (closed_connection_stays_off reachable (c := 0) (by decide +kernel)).2 _ ?_
  exact ⟨by decide +kernel, trivial⟩

/-- A thread calls `send` just before `handleClose`; its functor runs behind it and writes. -/
theorem queued_send_writes_after_close :
    ¬ ∀ (w : World) (c : ConnId) (a : Action), server.Reachable w → w.Closed c →
      server.enabled w a → w.StaysOff c a := by
  intro claim
  have admitted : server.Admits (demoServer 1 1) (demoOpening ++ .send 0 0 [1] :: demoClosing ++
      [.userReturn 1, .run 1 demoKernel, .run 1 demoKernel, .queueInLoop 0,
        .doPendingFunctors 1]) := by decide +kernel
  have off := claim _ 0 (.run 1 demoKernel) (admitted.reachable (demoServer_initial 1 1))
    (by decide +kernel) (by decide +kernel)
  exact absurd off.writes (by decide +kernel)

end EduMuduo

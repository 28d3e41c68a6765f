/-
Module: EduMuduo.Proofs.SessionRefinement
Layer: Proofs
Purpose: A connection of the server, between `connectEstablished` and its end, runs as the session
  of one loop thread does.  The jobs that the loops run and the calls of `shutdown`, whoever makes
  them, are put out as the events of a session; what the session then knows of the state, the
  descriptor, the channel and the output buffer is what the server has.
Imports: EduMuduo.Library.Refinement, EduMuduo.Core.Session, EduMuduo.Proofs.Announcement,
  EduMuduo.Proofs.StateOrder
Trusted boundary: none
Main exports: OutputSide, World.Open, sessionEvents, connection_runs_session
-/
import EduMuduo.Library.Refinement
import EduMuduo.Core.Session
import EduMuduo.Proofs.Announcement
import EduMuduo.Proofs.StateOrder

namespace EduMuduo

open Library

/-! ### What the two sides share -/

/-- What the member functions that send look at and change. -/
structure OutputSide where
  state : State
  socket : Socket
  channel : PolledChannel ConnId
  outputBuffer : SafeBuffer
  callbacks : Callbacks

namespace TcpConnection

def outputSide (self : TcpConnection) : OutputSide :=
  ⟨self.state, self.socket, self.channel, self.outputBuffer, self.callbacks⟩

/-- Two connections with one output side differ in what the other member functions look at. -/
theorem eq_of_outputSide {self other : TcpConnection} (same : self.outputSide = other.outputSide) :
    self = { other with
      loop := self.loop
      name := self.name
      inputBuffer := self.inputBuffer
      highWaterMarkCallback := self.highWaterMarkCallback
      highWaterMark := self.highWaterMark } := by
  cases self
  cases other
  cases same
  rfl

section Congruence

variable {self other : TcpConnection} (same : self.outputSide = other.outputSide)

include same

theorem sendInLoop_outputSide (data : List Byte) (result : WriteResult) :
    (self.sendInLoop data result).1.outputSide = (other.sendInLoop data result).1.outputSide := by
  rw [eq_of_outputSide same]
  cases result <;> simp only [sendInLoop, writeDirectly, bufferRest] <;> split_ifs <;> rfl

theorem shutdownInLoop_outputSide :
    self.shutdownInLoop.outputSide = other.shutdownInLoop.outputSide := by
  rw [eq_of_outputSide same, shutdownInLoop, shutdownInLoop]
  dsimp only
  split <;> rfl

theorem handleWrite_outputSide (result : WriteResult) :
    (self.handleWrite result).1.outputSide = (other.handleWrite result).1.outputSide := by
  rw [eq_of_outputSide same]
  cases result <;> simp only [handleWrite, shutdownInLoop] <;> split_ifs <;> rfl

theorem connectEstablished_outputSide :
    self.connectEstablished.outputSide = other.connectEstablished.outputSide := by
  rw [eq_of_outputSide same]
  rfl

theorem exchange_outputSide :
    self.exchangeDisconnecting.1.outputSide = other.exchangeDisconnecting.1.outputSide := by
  rw [eq_of_outputSide same]
  rfl

end Congruence

end TcpConnection

namespace World

/-! ### The callbacks of the server -/

theorem runInLoop_callbacks (w : World) (l ioLoop : LoopId) (task : Task) :
    (w.runInLoop l ioLoop task).server.callbacks = w.server.callbacks := by
  rw [runInLoop]
  split <;> rfl

theorem newConnection_callbacks (w : World) (l : LoopId) (named : Bool) :
    (w.newConnection l named).server.callbacks = w.server.callbacks := by
  cases named with
  | false => exact w.countAccepted_callbacks
  | true =>
      simp only [newConnection, if_true, runInLoop_callbacks]
      exact w.countAccepted_callbacks

/-- They are set before the server starts. -/
theorem next_callbacks (w : World) (a : Action) :
    (w.next a).server.callbacks = w.server.callbacks := by
  cases a with
  | handleEvent l named =>
      rw [next]
      split
      · rfl
      · rename_i first rest split
        cases first with
        | channel c revents => rfl
        | acceptor =>
            rw [handleEvent]
            split
            · rfl
            · exact newConnection_callbacks _ l named
  | run l kernel | submit l | userSend l c data | queueInLoop t | send t c data =>
      rw [next]
      split <;> rfl
  | userShutdown l c | shutdown t c =>
      simp only [next]
      split <;> rfl
  | destroyConnection c => exact runInLoop_callbacks _ _ _ _
  | destroyMember =>
      rw [next, destroyMember]
      split <;> rfl
  | enterLoop l | poll l active | doPendingFunctors l | endBatch l | destroyLoop l
  | userSetHighWaterMarkCallback l c mark | userRetrieve l c len | userTake l t c | userGive l t c
  | userReturn l | copy t other c | drop t c | queueUser t c | quit l | destroyServer => rfl

end World

/-! ### Before the session -/

/-- Until `connectEstablished` the output side is as constructed. -/
theorem outputSide_of_down {w : World} (reachable : server.Reachable w) {c : ConnId}
    (known : c < w.created) (down : ¬ w.Up c) :
    (w.conns c).conn.outputSide =
      (TcpConnection.construct c 0 "" w.server.callbacks).outputSide := by
  revert known down
  refine reachable.invariant (I := fun w => c < w.created → ¬ w.Up c →
    (w.conns c).conn.outputSide =
      (TcpConnection.construct c 0 "" w.server.callbacks).outputSide) ?_ ?_
  · rintro w ⟨name, ipPort, callbacks, ioLoops, users, rfl⟩ known
    exact absurd known (Nat.not_lt_zero c)
  · intro w a before blank guard known down
    have placed := placed before
    have later := placed.next_extends guard
    have wasDown : ¬ w.Up c := fun up => down (up.mono later)
    have wasKnown : c ≠ w.created → c < w.created := fun old =>
      Nat.lt_of_not_le fun unknown => old (World.eq_created_of_next unknown known)
    rw [show (server.next w a).server.callbacks = w.server.callbacks from w.next_callbacks a]
    have change := World.next_change guard c
    change ((w.next a).conns c).conn.outputSide = _
    have new : c = w.created → (w.next a).created ≠ w.created := by
      rintro rfl
      exact Nat.ne_of_gt known
    by_cases old : c = w.created
    · subst old
      rw [World.next_constructed (new rfl)]
      rfl
    · have blank := blank (wasKnown old) wasDown
      generalize tracked : (w.next a).conns c = after at change
      cases change with
      | same => exact blank
      | constructed new => exact absurd new old
      | performed l kernel job running current about here fits after events conn log deed =>
          subst about running
          by_cases establishes : job = .task (.connectEstablished job.conn)
          · exact absurd (World.up_of_establish placed guard (establishes ▸ current)) down
          · exact absurd (up_of_job before current establishes) wasDown
      | exchanged call => exact absurd (World.Exchanges.up placed guard call) wasDown
      | marked mark => exact blank
      | retrieved len => exact blank

/-! ### The session -/

/-- `connectEstablished` has begun, and neither `handleClose` nor `connectDestroyed` has. -/
def World.Open (w : World) (c : ConnId) : Prop := w.Up c ∧ ¬ w.Closed c ∧ ¬ w.Destroyed c

instance (w : World) (c : ConnId) : Decidable (w.Open c) :=
  inferInstanceAs (Decidable ((_ ∧ _) ∧ _ ∧ _))

/-- The event of a session that a job is.  What arrives at the connection is no concern of it. -/
def Job.sessionEvent? (kernel : Kernel) : Job → Option SessionEvent
  | .task (.sendInLoop _ data _) => some (.sendInLoop data kernel.write)
  | .task (.shutdownInLoop _) => some .shutdownInLoop
  | .callback .write _ => some (.handleWrite kernel.write)
  | _ => none

/-- The events of a session of connection `c` that an action is. -/
def Action.sessionEvents (c : ConnId) (w : World) : Action → List SessionEvent
  | .run l kernel =>
      match w.current l with
      | some job => if job.conn = c then (job.sessionEvent? kernel).toList else []
      | none => []
  | .userShutdown _ c' | .shutdown _ c' => if c' = c then [.shutdown] else []
  | _ => []

/-- While the connection is open, these are the events of its session. -/
def sessionEvents (c : ConnId) (w : World) (a : Action) : List SessionEvent :=
  if w.Open c then a.sessionEvents c w else []

namespace World

/-- The events that begin or end a session. -/
def Bounds : Event → Prop
  | .connectEstablished _ | .handleClose | .connectDestroyed _ | .connectDestroyedReturned => True
  | _ => False

/-- A job that is no event of the session and does not bound it leaves the output side alone. -/
theorem Deed.outputSide {l : LoopId} {kernel : Kernel} {conn after : TcpConnection} {job : Job}
    {events : List Event} (deed : Deed l kernel conn job after events)
    (none : job.sessionEvent? kernel = none) (within : ∀ event ∈ events, ¬ Bounds event) :
    after.outputSide = conn.outputSide := by
  cases deed with
  | establish c | destroy c | removeChannel c => exact absurd trivial (within _ List.mem_cons_self)
  | close callback c input closing =>
      exact absurd trivial (within .handleClose (List.mem_cons_of_mem _ List.mem_cons_self))
  | send c data caller | shutdown c | write c => cases none
  | remove c | other job | error c | read c input events received | closeCallback c => rfl

/-- A job is an event of the session, or it bounds the session, or it is no concern of it. -/
theorem perform_session {w : World} {l : LoopId} {kernel : Kernel} {job : Job}
    (fits : w.KernelFits kernel job) {s : Session}
    (same : s.conn.outputSide = (w.conns job.conn).conn.outputSide) :
    session.Admits s (job.sessionEvent? kernel).toList ∧
      ((∀ event ∈ (w.perform l kernel job).events, ¬ Bounds event) →
        (session.exec s (job.sessionEvent? kernel).toList).conn.outputSide =
          (w.perform l kernel job).conn.outputSide) := by
  have quiet : job.sessionEvent? kernel = none →
      session.Admits s (job.sessionEvent? kernel).toList ∧
        ((∀ event ∈ (w.perform l kernel job).events, ¬ Bounds event) →
          (session.exec s (job.sessionEvent? kernel).toList).conn.outputSide =
            (w.perform l kernel job).conn.outputSide) := by
    intro none
    rw [none]
    refine ⟨trivial, fun within => ?_⟩
    rw [(w.perform_deed l kernel job).outputSide none within]
    exact same
  cases job with
  | task task =>
      cases task with
      | sendInLoop c data caller =>
          exact ⟨⟨fits, trivial⟩,
            fun _ => TcpConnection.sendInLoop_outputSide same data kernel.write⟩
      | shutdownInLoop c =>
          exact ⟨⟨trivial, trivial⟩, fun _ => TcpConnection.shutdownInLoop_outputSide same⟩
      | _ => exact quiet rfl
  | callback callback c =>
      cases callback with
      | write =>
          have pending : s.conn.outputBuffer = (w.conns c).conn.outputBuffer :=
            congrArg OutputSide.outputBuffer same
          have fits : kernel.write.Fits s.conn.outputBuffer.readableBytes := by
            rw [pending]
            exact fits
          exact ⟨⟨fits, trivial⟩,
            fun _ => TcpConnection.handleWrite_outputSide same kernel.write⟩
      | _ => exact quiet rfl
  | _ => exact quiet rfl

/-- `shutdown` exchanges the state of its connection. -/
theorem Exchanges.conns {w : World} {a : Action} {c : ConnId} (exchanges : Exchanges a c) :
    (w.next a).conns = (w.setConn c (w.conns c).conn.exchangeDisconnecting.1 []).conns := by
  rcases exchanges with ⟨l, rfl⟩ | ⟨t, rfl⟩ <;>
  · simp only [next]
    split <;> rfl

/-- What is neither run nor an exchange leaves the output side of a known connection alone. -/
theorem next_outputSide {w : World} {a : Action} (guard : w.Enabled a) {c : ConnId}
    (known : c < w.created) (idle : ∀ l kernel, a ≠ .run l kernel) (other : ¬ Exchanges a c) :
    ((w.next a).conns c).conn.outputSide = (w.conns c).conn.outputSide := by
  have change := next_change guard c
  generalize (w.next a).conns c = tracked at change ⊢
  cases change with
  | same | marked mark | retrieved len => rfl
  | constructed new => exact absurd new (Nat.ne_of_lt known)
  | performed l kernel job running => exact absurd running (idle l kernel)
  | exchanged call => exact absurd call other

end World

/-- A connection that a job leaves open has seen no bound of the session. -/
theorem within_of_open {w : World} (reachable : server.Reachable w) {l : LoopId} {kernel : Kernel}
    {job : Job} (guard : w.Enabled (.run l kernel)) (current : w.current l = some job)
    (before : w.Open job.conn) (after : (w.next (.run l kernel)).Open job.conn) :
    ∀ event ∈ (w.perform l kernel job).events, ¬ World.Bounds event := by
  intro event written bounds
  have ok := (placed reachable).current_ok current
  have later := (placed reachable).next_extends guard
  have seen := World.mem_run_history guard current written
  have emits := (w.perform_deed l kernel job).emits written
  cases emits with
  | established c => exact (establishToken reachable).not_up_of_current current before.1
  | closed callback c closing => exact after.2.1 seen
  | destroyed c =>
      have here : ((w.next (.run l kernel)).conns c).conn.loop = l :=
        (later.loop c ok.1.1).trans (ok.2 rfl)
      apply after.2.2
      change Event.connectDestroyed ((w.next (.run l kernel)).conns c).conn.loop ∈ _
      rw [here]
      exact seen
  | returned c =>
      have reached := Machine.Reachable.step (M := server) (a := .run l kernel) reachable guard
      exact after.2.2 (destroyed_of_returned reached seen)
  | announcedUp | handler | announcedDown | message | closeCallback | removed
  | announcedDestroyed => exact bounds

/-- What is open behind a step was open or is established by it. -/
theorem open_next {w : World} (reachable : server.Reachable w) {a : Action}
    (guard : w.Enabled a) {c : ConnId} (after : (w.next a).Open c) :
    w.Open c ∨ c < w.created ∧ ∃ l kernel, a = .run l kernel ∧
      w.current l = some (.task (.connectEstablished c)) := by
  have placed := placed reachable
  have later := placed.next_extends guard
  have event := after.1.2
  have known : c < w.created := by
    by_contra unknown
    rw [placed.next_history_unknown guard (Nat.le_of_not_lt unknown)] at event
    exact absurd event List.not_mem_nil
  rw [later.loop c known] at event
  rcases World.mem_next_history guard event (Nat.ne_of_lt known) with
    old | ⟨l, kernel, job, running, current, about, here, emits⟩
  · refine .inl ⟨⟨known, old⟩, fun closed => after.2.1 (later.history c known _ closed), ?_⟩
    intro destroyed
    apply after.2.2
    rw [World.Destroyed, later.loop c known]
    exact later.history c known _ destroyed
  · cases emits with
    | established c' =>
        obtain rfl : c' = c := about
        exact .inr ⟨known, _, kernel, running, current⟩

/-! ### The refinement -/

/-- Before it begins the session waits; while it lasts, both have one output side. -/
structure RunsSession (c : ConnId) (start : Session) (w : World) (s : Session) : Prop where
  callbacks : ∃ loop name, start = .established c loop name w.server.callbacks none
  before : ¬ w.Up c → s = start
  during : w.Open c → s.conn.outputSide = (w.conns c).conn.outputSide

/-- What is neither run nor an exchange is no event of the session. -/
theorem sessionEvents_idle {w : World} {a : Action} {c : ConnId}
    (idle : ∀ l kernel, a ≠ .run l kernel) (other : ¬ World.Exchanges a c) :
    a.sessionEvents c w = [] := by
  cases a with
  | run l kernel => exact absurd rfl (idle l kernel)
  | userShutdown l c' =>
      apply if_neg
      rintro rfl
      exact other (.inl ⟨l, rfl⟩)
  | shutdown t c' =>
      apply if_neg
      rintro rfl
      exact other (.inr ⟨t, rfl⟩)
  | _ => rfl

theorem sessionEvents_exchange {w : World} {a : Action} {c : ConnId}
    (exchanges : World.Exchanges a c) : a.sessionEvents c w = [.shutdown] := by
  rcases exchanges with ⟨l, rfl⟩ | ⟨t, rfl⟩ <;> exact if_pos rfl

/-- An action on an open connection is admitted by the session, and both end alike if the
connection stays open. -/
theorem open_step {w : World} (reachable : server.Reachable w) {a : Action}
    (guard : w.Enabled a) {c : ConnId} (before : w.Open c) {s : Session}
    (same : s.conn.outputSide = (w.conns c).conn.outputSide) :
    session.Admits s (sessionEvents c w a) ∧ ((w.next a).Open c →
      (session.exec s (sessionEvents c w a)).conn.outputSide =
        ((w.next a).conns c).conn.outputSide) := by
  rw [sessionEvents, if_pos before]
  by_cases runs : ∃ l kernel, a = .run l kernel
  · obtain ⟨l, kernel, rfl⟩ := runs
    obtain ⟨job, loop, fetched, current, _, fits⟩ := World.enabled_run guard
    simp only [Action.sessionEvents, current]
    by_cases about : job.conn = c
    · subst about
      rw [if_pos rfl]
      obtain ⟨admitted, agrees⟩ := World.perform_session fits same
      refine ⟨admitted, fun after => ?_⟩
      rw [World.run_conns fetched, Function.update_self]
      exact agrees (within_of_open reachable guard current before after)
    · rw [if_neg about, World.run_conns fetched, Function.update_of_ne (Ne.symm about)]
      exact ⟨trivial, fun _ => same⟩
  · have idle : ∀ l kernel, a ≠ .run l kernel := fun l kernel is => runs ⟨l, kernel, is⟩
    by_cases exchanges : World.Exchanges a c
    · rw [sessionEvents_exchange exchanges, exchanges.conns, World.setConn_self]
      exact ⟨⟨trivial, trivial⟩, fun _ => TcpConnection.exchange_outputSide same⟩
    · rw [sessionEvents_idle idle exchanges]
      refine ⟨trivial, fun _ => same.trans ?_⟩
      exact (World.next_outputSide guard before.1.1 idle exchanges).symm

/-- The establishment makes the connection what the session starts from. -/
theorem outputSide_of_establish {w : World} (reachable : server.Reachable w) {l : LoopId}
    {kernel : Kernel} (guard : w.Enabled (.run l kernel)) {c : ConnId} (known : c < w.created)
    (current : w.current l = some (.task (.connectEstablished c))) (loop : LoopId)
    (name : String) :
    (Session.established c loop name w.server.callbacks none).conn.outputSide =
      ((w.next (.run l kernel)).conns c).conn.outputSide := by
  obtain ⟨job, after, fetched, found, _⟩ := World.enabled_run guard
  cases current.symm.trans found
  have down := (establishToken reachable).not_up_of_current current
  rw [World.run_conns fetched]
  change _ = (Function.update w.conns c _ c).conn.outputSide
  rw [Function.update_self]
  apply TcpConnection.connectEstablished_outputSide
  exact (outputSide_of_down reachable known down).symm

theorem refinesSession (c : ConnId) (start : Session) :
    Machine.Refines server session (sessionEvents c) (RunsSession c start) := by
  refine ⟨fun w s a reachable runs guard => ?_⟩
  have guard : w.Enabled a := guard
  have callbacks : ∃ loop name,
      start = .established c loop name (w.next a).server.callbacks none := by
    rw [w.next_callbacks a]
    exact runs.callbacks
  have up : w.Up c → (w.next a).Up c := fun up => up.mono ((placed reachable).next_extends guard)
  by_cases before : w.Open c
  · obtain ⟨admitted, agrees⟩ := open_step reachable guard before (runs.during before)
    exact ⟨admitted, callbacks, fun down => absurd (up before.1) down, agrees⟩
  · rw [sessionEvents, if_neg before]
    refine ⟨trivial, callbacks, fun down => runs.before fun was => down (up was), fun after => ?_⟩
    rcases open_next reachable guard after with was | ⟨known, l, kernel, rfl, current⟩
    · exact absurd was before
    · obtain ⟨loop, name, rfl⟩ := runs.callbacks
      rw [Machine.exec_nil,
        runs.before ((establishToken reachable).not_up_of_current current)]
      exact outputSide_of_establish reachable guard known current loop name

/-- In every run of the server, what happens to a connection between its establishment and its end
is a run of a session with the server's callbacks, and as long as the connection is open both agree
on the state, the descriptor, the channel and the output buffer. -/
theorem connection_runs_session (start : World) (initial : server.initial start)
    (schedule : List Action) (admitted : server.Admits start schedule) (c : ConnId)
    (loop : LoopId) (name : String) :
    session.Admits (.established c loop name start.server.callbacks none)
        (server.outputs (sessionEvents c) start schedule) ∧
      ((server.exec start schedule).Open c →
        (session.exec (.established c loop name start.server.callbacks none)
          (server.outputs (sessionEvents c) start schedule)).conn.outputSide =
            ((server.exec start schedule).conns c).conn.outputSide) := by
  have unborn : ¬ start.Up c := by
    rintro ⟨known, _⟩
    obtain ⟨_, _, _, _, _, rfl⟩ := initial
    exact absurd known (Nat.not_lt_zero c)
  have begins : RunsSession c (.established c loop name start.server.callbacks none) start
      (.established c loop name start.server.callbacks none) :=
    ⟨⟨loop, name, rfl⟩, fun _ => rfl, fun before => absurd before.1 unborn⟩
  obtain ⟨runs, final⟩ :=
    (refinesSession c _).run (.start initial) begins admitted
  exact ⟨runs, final.during⟩

/-- A thread sends three bytes, of which the kernel takes one, and calls `shutdown`. -/
def demoSendAndShutdown : List Action :=
  demoOpening ++ [.send 0 0 [1, 2, 3], .queueInLoop 0, .poll 1 [], .doPendingFunctors 1,
    .run 1 demoKernel, .endBatch 1, .shutdown 0 0, .queueInLoop 0, .poll 1 [.channel 0 EPOLLOUT],
    .handleEvent 1 true, .run 1 ⟨.data [], .accepted 2⟩]

theorem connection_runs_session_demo :
    session.Admits (.established 0 1 "" ⟨true, true, true⟩ none)
        [.sendInLoop [1, 2, 3] (.accepted 1), .shutdown, .handleWrite (.accepted 2)] ∧
      (session.exec (.established 0 1 "" ⟨true, true, true⟩ none)
        [.sendInLoop [1, 2, 3] (.accepted 1), .shutdown,
          .handleWrite (.accepted 2)]).conn.outputSide =
        ((server.exec (demoServer 1 1) demoSendAndShutdown).conns 0).conn.outputSide := by
  have admitted : server.Admits (demoServer 1 1) demoSendAndShutdown := by decide +kernel
  have events : server.outputs (sessionEvents 0) (demoServer 1 1) demoSendAndShutdown =
      [.sendInLoop [1, 2, 3] (.accepted 1), .shutdown, .handleWrite (.accepted 2)] := by
    decide +kernel
  obtain ⟨runs, agree⟩ := connection_runs_session (demoServer 1 1) (demoServer_initial 1 1)
    demoSendAndShutdown admitted 0 1 ""
  rw [events] at runs agree
  exact ⟨runs, agree (by decide +kernel)⟩

end EduMuduo

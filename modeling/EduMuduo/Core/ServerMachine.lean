/-
Module: EduMuduo.Core.ServerMachine
Layer: Core
Purpose: The runs of a server.  The loop threads, the user's code on them and the user's own threads
  take turns in any order; the kernel's answers, the events it reports and the moves of the user
  are arguments of the actions.  User code on a loop thread uses the connections of which its
  frame has a copy, and exchanges copies with the user's threads.
Imports: EduMuduo.Library.Machine, EduMuduo.Core.Server
Trusted boundary: human-reviewed model
Main exports: Action, World.Enabled, World.next, server, World.OnJobs
-/
import EduMuduo.Library.Machine
import EduMuduo.Core.Server

namespace EduMuduo

open Library

inductive Action where
  /-- `loop()` is called and stores `quit_ = false`; the test of `quit_` comes next -/
  | enterLoop (l : LoopId)
  /-- `poll` returns with these active channels -/
  | poll (l : LoopId) (active : List Active)
  /-- `handleEvent` of the next active channel; for the acceptor, a socket is accepted and `named`
  is whether its `getsockname` succeeds -/
  | handleEvent (l : LoopId) (named : Bool)
  | doPendingFunctors (l : LoopId)
  /-- the batch is used up and released, and `quit_` tested -/
  | endBatch (l : LoopId)
  /-- behind `loop()` a thread of the pool ends `threadFunc`, and its `EventLoop` goes -/
  | destroyLoop (l : LoopId)
  /-- the next job of the loop thread -/
  | run (l : LoopId) (kernel : Kernel)
  /-- `queueInLoop` of a functor for another loop, called on the stack of this one -/
  | submit (l : LoopId)
  /-- user code on a loop thread -/
  | userSend (l : LoopId) (c : ConnId) (data : List Byte)
  | userShutdown (l : LoopId) (c : ConnId)
  | userSetHighWaterMarkCallback (l : LoopId) (c : ConnId) (mark : Nat)
  | userRetrieve (l : LoopId) (c : ConnId) (len : Nat)
  | userTake (l : LoopId) (t : ThreadId) (c : ConnId)
  | userGive (l : LoopId) (t : ThreadId) (c : ConnId)
  | userReturn (l : LoopId)
  /-- a thread of the user -/
  | copy (t other : ThreadId) (c : ConnId)
  | drop (t : ThreadId) (c : ConnId)
  /-- the test of `state_` in `send`, and the exchange in `shutdown` -/
  | send (t : ThreadId) (c : ConnId) (data : List Byte)
  | shutdown (t : ThreadId) (c : ConnId)
  | queueUser (t : ThreadId) (c : ConnId)
  /-- the push of the `queueInLoop` that the thread is in -/
  | queueInLoop (t : ThreadId)
  | quit (l : LoopId)
  /-- `~TcpServer` on the base loop's thread: its beginning, one connection, one later step -/
  | destroyServer
  | destroyConnection (c : ConnId)
  | destroyMember
deriving Repr, DecidableEq

namespace World

def isLoop (w : World) (l : LoopId) : Prop := l ≤ w.server.ioLoops

def isThread (w : World) (t : ThreadId) : Prop := t < w.users

instance (w : World) (l : LoopId) : Decidable (w.isLoop l) := inferInstanceAs (Decidable (_ ≤ _))

instance (w : World) (t : ThreadId) : Decidable (w.isThread t) :=
  inferInstanceAs (Decidable (_ < _))

/-- The kernel has the connection's descriptor in an interest list; it drops the descriptor when
`~Socket` closes it with the last owner. -/
def registered (w : World) (c : ConnId) : Bool := (w.conns c).conn.channel.registered && w.owned c

/-- What `epoll_wait` of loop `l` may report. -/
def Pollable (w : World) (l : LoopId) : Active → Prop
  | .acceptor => l = 0 ∧ w.server.destroyed = false
  | .channel c _ =>
      c < w.created ∧ (w.conns c).conn.loop = l ∧ w.registered c = true

instance (w : World) (l : LoopId) : ∀ active, Decidable (w.Pollable l active)
  | .acceptor => inferInstanceAs (Decidable (_ ∧ _))
  | .channel _ _ => inferInstanceAs (Decidable (_ ∧ _ ∧ _))

/-- A task on the loop's stack or queue is run there only if it belongs there. -/
def RunsHere (w : World) (l : LoopId) : Job → Prop
  | .task task => w.target task = l
  | _ => True

instance (w : World) (l : LoopId) : ∀ job, Decidable (w.RunsHere l job)
  | .task _ => inferInstanceAs (Decidable (_ = _))
  | .callback _ _ | .releaseGuard _ | .closeCallback _ | .removeChannel _ =>
      inferInstanceAs (Decidable True)

instance (w : World) (kernel : Kernel) : ∀ job, Decidable (w.KernelFits kernel job)
  | .task (.sendInLoop _ _ _) => inferInstanceAs (Decidable (WriteResult.Fits _ _))
  | .callback .write _ => inferInstanceAs (Decidable (WriteResult.Fits _ _))
  | .callback .read _ => inferInstanceAs (Decidable (ReadResult.Fits _ _))
  | .task (.connectEstablished _) | .task (.connectDestroyed _)
  | .task (.removeConnectionInLoop _) | .task (.shutdownInLoop _)
  | .task (.writeCompleteCallback _) | .task (.highWaterMarkCallback _ _) | .task (.user _)
  | .callback .close _ | .callback .error _ | .releaseGuard _ | .closeCallback _
  | .removeChannel _ => inferInstanceAs (Decidable True)

/-- The job that loop `l` runs next. -/
def current (w : World) (l : LoopId) : Option Job := (w.loops l).fetch.map Prod.fst

/-- The functor for another loop that tops the stack. -/
def submitted (w : World) (l : LoopId) : Option Task :=
  match (w.loops l).stack with
  | .job (.task task) :: _ => if w.target task = l then none else some task
  | _ => none

/-- When the next step of `~TcpServer` behind its first loop can be taken; a join waits. -/
def MemberReady (w : World) : List Frame → Prop
  | .destroyServer :: _ => w.server.connections = []
  | .quitThread _ :: _ | .destroyAcceptor :: _ => True
  | .joinThread l :: _ => (w.loops l).destroyed = true
  | _ => False

instance (w : World) : ∀ stack, Decidable (w.MemberReady stack)
  | .destroyServer :: _ => inferInstanceAs (Decidable (_ = []))
  | .quitThread _ :: _ | .destroyAcceptor :: _ => inferInstanceAs (Decidable True)
  | .joinThread _ :: _ => inferInstanceAs (Decidable (_ = true))
  | [] | .job _ :: _ | .user _ :: _ => inferInstanceAs (Decidable False)

def Enabled (w : World) : Action → Prop
  | .enterLoop l =>
      w.isLoop l ∧ (w.loops l).phase = .entering ∧ (w.loops l).stack = []
  | .poll l active =>
      w.isLoop l ∧ (w.loops l).phase = .polling ∧ (∀ x ∈ active, w.Pollable l x) ∧
        (active.map fun | .acceptor => none | .channel c _ => some c).Nodup
  | .handleEvent l _ =>
      w.isLoop l ∧ (w.loops l).phase = .handling ∧ (w.loops l).stack = [] ∧
        (w.loops l).activeChannels ≠ []
  | .doPendingFunctors l =>
      w.isLoop l ∧ (w.loops l).phase = .handling ∧ (w.loops l).stack = [] ∧
        (w.loops l).activeChannels = []
  | .endBatch l =>
      w.isLoop l ∧ (w.loops l).phase = .draining ∧ (w.loops l).stack = [] ∧
        (w.loops l).functors.batch = []
  | .destroyLoop l =>
      w.isLoop l ∧ l ≠ 0 ∧ (w.loops l).phase = .stopped ∧ (w.loops l).destroyed = false
  | .run l kernel =>
      w.isLoop l ∧ ∃ job ∈ w.current l, w.RunsHere l job ∧ w.KernelFits kernel job
  | .submit l => w.isLoop l ∧ (w.submitted l).isSome = true
  | .userSend l c _ | .userShutdown l c | .userSetHighWaterMarkCallback l c _
  | .userRetrieve l c _ => w.isLoop l ∧ c ∈ (w.loops l).copies
  | .userTake l t c =>
      w.isLoop l ∧ w.isThread t ∧ (w.loops l).inUserCode = true ∧ c ∈ (w.threads t).copies
  | .userGive l t c => w.isLoop l ∧ w.isThread t ∧ c ∈ (w.loops l).copies
  | .userReturn l => w.isLoop l ∧ (w.loops l).inUserCode = true
  | .copy t other c => w.isThread t ∧ w.isThread other ∧ c ∈ (w.threads t).copies
  | .drop t c | .send t c _ | .shutdown t c | .queueUser t c =>
      w.isThread t ∧ (w.threads t).calling = none ∧ c ∈ (w.threads t).copies
  | .queueInLoop t => w.isThread t ∧ (w.threads t).calling.isSome = true
  | .quit l => w.isLoop l
  | .destroyServer =>
      -- called in user code; a functor or a channel of the user that has nothing to do with the
      -- server finds the stack empty, and so does what comes behind `loop()`
      w.server.destroying = false ∧
        ((w.loops 0).inUserCode = true ∨ (w.loops 0).phase ≠ .polling ∧ (w.loops 0).stack = [])
  | .destroyConnection c =>
      (w.loops 0).stack.head? = some .destroyServer ∧
        ((w.conns c).conn.name, c) ∈ w.server.connections
  | .destroyMember => w.MemberReady (w.loops 0).stack

instance (w : World) : ∀ action, Decidable (w.Enabled action)
  | .poll _ _ | .handleEvent _ _ | .doPendingFunctors _ | .endBatch _ | .destroyLoop _ =>
      inferInstanceAs (Decidable (_ ∧ _ ∧ _ ∧ _))
  | .run l kernel =>
      inferInstanceAs (Decidable
        (_ ∧ ∃ job ∈ w.current l, w.RunsHere l job ∧ w.KernelFits kernel job))
  | .submit _ => inferInstanceAs (Decidable (_ ∧ _))
  | .userSend _ _ _ | .userShutdown _ _ | .userSetHighWaterMarkCallback _ _ _
  | .userRetrieve _ _ _ | .userReturn _ | .queueInLoop _ | .destroyServer
  | .destroyConnection _ => inferInstanceAs (Decidable (_ ∧ _))
  | .userTake _ _ _ => inferInstanceAs (Decidable (_ ∧ _ ∧ _ ∧ _))
  | .enterLoop _ | .userGive _ _ _ | .copy _ _ _ | .drop _ _ | .send _ _ _ | .shutdown _ _
  | .queueUser _ _ =>
      inferInstanceAs (Decidable (_ ∧ _ ∧ _))
  | .quit _ => inferInstanceAs (Decidable (_ ≤ _))
  | .destroyMember => inferInstanceAs (Decidable (w.MemberReady _))

/-- A step of `~TcpServer` behind its loop over `connections_`: the threads of the pool are
stopped one by one, and the acceptor goes last. -/
def destroyMember (w : World) : World :=
  match (w.loops 0).stack with
  | .destroyServer :: _ =>
      w.setLoop 0 ((w.loops 0).pop.push
        ((List.range w.server.ioLoops).flatMap (fun i => [.quitThread (i + 1), .joinThread (i + 1)])
          ++ [.destroyAcceptor]))
  | .quitThread l :: _ =>
      let w := w.setLoop 0 (w.loops 0).pop
      w.setLoop l { w.loops l with quit := true, asked := true }
  | .joinThread _ :: _ => w.setLoop 0 (w.loops 0).pop
  | .destroyAcceptor :: _ =>
      { w with server := { w.server with destroyed := true } }.setLoop 0 (w.loops 0).pop
  | _ => w

/-- `handleEvent` of one active channel; behind the acceptor's stands `newConnection`. -/
def handleEvent (w : World) (l : LoopId) (named : Bool) : Active → World
  | .acceptor => if w.server.destroyed then w else w.newConnection l named
  | .channel c revents => w.setLoop l ((w.loops l).push (w.dispatch c revents))

def next (w : World) : Action → World
  | .enterLoop l => w.setLoop l { w.loops l with phase := .draining, quit := false }
  | .poll l active =>
      w.setLoop l { w.loops l with phase := .handling, activeChannels := active }
  | .handleEvent l named =>
      match (w.loops l).activeChannels with
      | [] => w
      | active :: rest =>
          (w.setLoop l { w.loops l with activeChannels := rest }).handleEvent l named active
  | .doPendingFunctors l =>
      w.setLoop l { w.loops l with phase := .draining, functors := (w.loops l).functors.swap }
  | .endBatch l =>
      w.setLoop l { w.loops l with
        phase := if (w.loops l).quit then .stopped else .polling
        functors := (w.loops l).functors.release }
  | .destroyLoop l => w.setLoop l { w.loops l with destroyed := true }
  | .run l kernel =>
      match (w.loops l).fetch with
      | some (job, loop) => w.commit l loop job.conn (w.perform l kernel job)
      | none => w
  | .submit l =>
      match w.submitted l with
      | some task => (w.setLoop l (w.loops l).pop).queueInLoop (w.target task) [task]
      | none => w
  | .userSend l c data =>
      if (w.conns c).conn.connected then
        w.setLoop l ((w.loops l).push [.job (.task (.sendInLoop c data (.loop l)))])
      else w
  | .userShutdown l c =>
      let (conn, wasConnected) := (w.conns c).conn.exchangeDisconnecting
      let w := w.setConn c conn []
      if wasConnected then w.setLoop l ((w.loops l).push [.job (.task (.shutdownInLoop c))])
      else w
  | .userSetHighWaterMarkCallback _ c mark =>
      w.setConn c ((w.conns c).conn.setHighWaterMarkCallback mark) []
  | .userRetrieve _ c len =>
      let conn := (w.conns c).conn
      w.setConn c { conn with inputBuffer := conn.inputBuffer.retrieve len } []
  | .userTake l _ c =>
      w.setLoop l ((w.loops l).pop.push [.user (c :: (w.loops l).copies)])
  | .userGive _ t c =>
      w.setThread t { w.threads t with copies := c :: (w.threads t).copies }
  | .userReturn l => w.setLoop l (w.loops l).pop
  | .copy _ other c =>
      w.setThread other { w.threads other with copies := c :: (w.threads other).copies }
  | .drop t c => w.setThread t { w.threads t with copies := (w.threads t).copies.erase c }
  | .send t c data =>
      if (w.conns c).conn.connected then
        w.setThread t { w.threads t with calling := some (.sendInLoop c data (.thread t)) }
      else w
  | .shutdown t c =>
      let (conn, wasConnected) := (w.conns c).conn.exchangeDisconnecting
      let w := w.setConn c conn []
      if wasConnected then
        w.setThread t { w.threads t with calling := some (.shutdownInLoop c) }
      else w
  | .queueUser t c => w.setThread t { w.threads t with calling := some (.user c) }
  | .queueInLoop t =>
      match (w.threads t).calling with
      | some task =>
          (w.setThread t { w.threads t with calling := none }).queueInLoop (w.target task) [task]
      | none => w
  | .quit l => w.setLoop l { w.loops l with quit := true, asked := true }
  | .destroyServer =>
      { w with server := { w.server with destroying := true } }.setLoop 0
        ((w.loops 0).push [.destroyServer])
  | .destroyConnection c =>
      let conn := (w.conns c).conn
      (w.setConnections (w.server.connections.erase conn.name)).runInLoop 0 conn.loop
        (.connectDestroyed c)
  | .destroyMember => w.destroyMember

/-- A server behind `start()`, with no connection yet: the loops of the pool are published, and no
thread need have entered `loop()`.  What stands in `conns` beyond `created` is never looked at. -/
def started (name ipPort : String) (callbacks : Callbacks) (ioLoops users : Nat) : World where
  server := {
    name := name
    ipPort := ipPort
    callbacks := callbacks
    ioLoops := ioLoops
    next := 0
    nextConnId := 1
    connections := []
    destroying := false
    destroyed := false }
  loops := fun _ => .started
  conns := fun c => ⟨.construct c 0 "" callbacks, []⟩
  threads := fun _ => ⟨[], none⟩
  users := users
  created := 0
  accepted := 0

end World

/-- All runs of a server with any number of io loops and user threads. -/
def server : Machine World Action where
  initial w := ∃ name ipPort callbacks ioLoops users,
    w = .started name ipPort callbacks ioLoops users
  enabled := World.Enabled
  next := World.next

instance (w : World) (action : Action) : Decidable (server.enabled w action) :=
  inferInstanceAs (Decidable (w.Enabled action))

theorem reachable_next {w : World} {a : Action} (reachable : server.Reachable w)
    (guard : w.Enabled a) : server.Reachable (w.next a) := reachable.step guard

/-- A condition on the jobs that are run, as a condition on the actions. -/
def World.OnJobs (condition : World → Kernel → Job → Prop) (w : World) : Action → Prop
  | .run l kernel => ∀ job ∈ w.current l, condition w kernel job
  | _ => True

instance (condition : World → Kernel → Job → Prop)
    [∀ w kernel job, Decidable (condition w kernel job)] (w : World) :
    ∀ action, Decidable (w.OnJobs condition action)
  | .run l kernel => inferInstanceAs (Decidable (∀ job ∈ w.current l, condition w kernel job))
  | .enterLoop _ | .poll _ _ | .handleEvent _ _ | .doPendingFunctors _ | .endBatch _
  | .destroyLoop _ | .submit _ | .userSend _ _ _ | .userShutdown _ _
  | .userSetHighWaterMarkCallback _ _ _
  | .userRetrieve _ _ _ | .userTake _ _ _ | .userGive _ _ _ | .userReturn _ | .copy _ _ _
  | .drop _ _ | .send _ _ _ | .shutdown _ _ | .queueUser _ _ | .queueInLoop _ | .quit _
  | .destroyServer | .destroyConnection _ | .destroyMember => inferInstanceAs (Decidable True)

/-- A server with all callbacks set, for the runs that the proofs exhibit. -/
def demoServer (ioLoops users : Nat) : World :=
  .started "EchoServer01" "0.0.0.0:8002" ⟨true, true, true⟩ ioLoops users

theorem demoServer_initial (ioLoops users : Nat) : server.initial (demoServer ioLoops users) :=
  ⟨_, _, _, _, _, rfl⟩

/-- The kernel reports the end of the stream and takes one byte. -/
def demoKernel : Kernel := ⟨.data [], .accepted 1⟩

/-- The base loop is entered. -/
def demoBaseEntering : List Action := [.enterLoop 0, .endBatch 0]

/-- Loops 0 and 1 are entered. -/
def demoEntering : List Action := demoBaseEntering ++ [.enterLoop 1, .endBatch 1]

/-- Loop 1 of the server establishes connection 0, and user thread 0 gets a copy of it. -/
def demoOpening : List Action :=
  demoEntering ++
    [.poll 0 [.acceptor], .handleEvent 0 true, .poll 1 [], .doPendingFunctors 1, .run 1 demoKernel,
      .userGive 1 0 0, .userReturn 1, .endBatch 1]

end EduMuduo

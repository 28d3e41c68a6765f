/-
Module: EduMuduo.Core.Server
Layer: Core
Purpose: A running server: the connection map, the event loops with their call stacks and task
  queues, the connections, and the user's threads with their `shared_ptr` copies.  Loop 0 is the
  base loop and loops `1, …, ioLoops` are the pool's.  A function that calls user code, or makes a
  call that another thread can observe in between, is cut there into jobs; what it has left to do
  waits on the call stack of its loop thread.  Functors are data here, with the `shared_ptr` or the
  raw `this` they capture.
Imports: EduMuduo.Library.BatchQueue, EduMuduo.Core.EventLoop, EduMuduo.Core.TcpConnection,
  Mathlib.Algebra.Group.Nat.Defs, Mathlib.Logic.Function.Basic
Trusted boundary: human-reviewed model
Main exports: Task, Job, Frame, Loop, World, World.owned, World.perform, World.newConnection
-/
import EduMuduo.Library.BatchQueue
import EduMuduo.Core.EventLoop
import EduMuduo.Core.TcpConnection
import Mathlib.Algebra.Group.Nat.Defs
import Mathlib.Logic.Function.Basic

namespace EduMuduo

open Library

/-! ### Functors and call stacks -/

/-- The thread that calls a function of the library. -/
inductive Caller where
  | loop (l : LoopId)
  | thread (t : ThreadId)
deriving Repr, DecidableEq

/-- The functors that the library and its user hand to loops.  The caller of a `sendInLoop` is
remembered for the statements about it. -/
inductive Task where
  | connectEstablished (c : ConnId)
  | connectDestroyed (c : ConnId)
  | removeConnectionInLoop (c : ConnId)
  | sendInLoop (c : ConnId) (data : List Byte) (caller : Caller)
  | shutdownInLoop (c : ConnId)
  | writeCompleteCallback (c : ConnId)
  | highWaterMarkCallback (c : ConnId) (total : Nat)
  | user (c : ConnId)
deriving Repr, DecidableEq

namespace Task

/-- The connection that the functor captures. -/
def conn : Task → ConnId
  | .connectEstablished c | .connectDestroyed c | .removeConnectionInLoop c
  | .sendInLoop c _ _ | .shutdownInLoop c | .writeCompleteCallback c
  | .highWaterMarkCallback c _ | .user c => c

/-- Captured by raw `this`, hence without a share in the ownership. -/
def raw : Task → Bool
  | .connectEstablished _ | .connectDestroyed _ | .removeConnectionInLoop _ | .user _ => false
  | .sendInLoop _ _ _ | .shutdownInLoop _ | .writeCompleteCallback _
  | .highWaterMarkCallback _ _ => true

/-- The functors that carry a connection through its life from loop to loop. -/
def hop : Task → Bool
  | .connectEstablished _ | .connectDestroyed _ | .removeConnectionInLoop _ => true
  | .sendInLoop _ _ _ | .shutdownInLoop _ | .writeCompleteCallback _
  | .highWaterMarkCallback _ _ | .user _ => false

/-- The `shared_ptr` copies that the functor holds. -/
def held (task : Task) : List ConnId := if task.raw then [] else [task.conn]

end Task

/-- A stretch of library code that a loop thread runs without a stop. -/
inductive Job where
  | task (task : Task)
  /-- one callback of `handleEventWithGuard` -/
  | callback (callback : Channel.Callback) (c : ConnId)
  /-- the end of `handleEvent`, where `guard` goes out of scope -/
  | releaseGuard (c : ConnId)
  /-- the rest of `handleClose`, from `closeCallback_(self)` on -/
  | closeCallback (c : ConnId)
  /-- the rest of `connectDestroyed`, from `channel_->remove()` on -/
  | removeChannel (c : ConnId)
deriving Repr, DecidableEq

namespace Job

def conn : Job → ConnId
  | .task functor => functor.conn
  | .callback _ c | .releaseGuard c | .closeCallback c | .removeChannel c => c

/-- The `shared_ptr` copies in the local variables of the function. -/
def held : Job → List ConnId
  | .task functor => functor.held
  | .callback _ _ => []
  | .releaseGuard c | .closeCallback c | .removeChannel c => [c]

end Job

/-- What is on the call stack of a loop thread. -/
inductive Frame where
  | job (job : Job)
  /-- a user callback or functor, with the `shared_ptr` copies it has -/
  | user (held : List ConnId)
  /-- `~TcpServer` in its loop over `connections_` -/
  | destroyServer
  /-- `~EventLoopThread`: `loop->quit()`, then `thread_.join()` -/
  | quitThread (l : LoopId)
  | joinThread (l : LoopId)
  /-- the end of `~TcpServer` -/
  | destroyAcceptor
deriving Repr, DecidableEq

def Frame.held : Frame → List ConnId
  | .job code => code.held
  | .user held => held
  | .destroyServer | .quitThread _ | .joinThread _ | .destroyAcceptor => []

/-- An element of `activeChannels_`. -/
inductive Active where
  | acceptor
  | channel (c : ConnId) (revents : EpollEvents)
deriving Repr, DecidableEq

/-- The part of `loop()` that a loop thread is in. -/
inductive Phase where
  /-- before `loop()` stores `quit_ = false` -/
  | entering
  | polling
  | handling
  /-- `doPendingFunctors`, and with no batch what stands before a test of `quit_` -/
  | draining
  | stopped
deriving Repr, DecidableEq

/-- An event loop as the server sees it; wakeups are left to the model of the loop alone. -/
structure Loop where
  phase : Phase
  activeChannels : List Active
  stack : List Frame
  functors : BatchQueue Task
  quit : Bool
  /-- `quit()` has been called, whether or not `loop()` has stored over it -/
  asked : Bool
  /-- `threadFunc` has ended, and its variable `loop` with it -/
  destroyed : Bool
deriving Repr, DecidableEq

namespace Loop

/-- Published and not yet in `loop()`. -/
def started : Loop := ⟨.entering, [], [], .empty, false, false, false⟩

/-- The functors in memory.  What a destroyed loop had queued went with it. -/
def stored (loop : Loop) : List Task := if loop.destroyed then [] else loop.functors.stored

/-- The copies held by the thread's stack and by the stored functors. -/
def held (loop : Loop) : List ConnId :=
  loop.stack.flatMap Frame.held ++ loop.stored.flatMap Task.held

/-- The copies at hand for user code on the loop thread. -/
def copies (loop : Loop) : List ConnId :=
  match loop.stack with
  | .user held :: _ => held
  | _ => []

def inUserCode (loop : Loop) : Bool :=
  match loop.stack with
  | .user _ :: _ => true
  | _ => false

def push (loop : Loop) (frames : List Frame) : Loop := { loop with stack := frames ++ loop.stack }

def pop (loop : Loop) : Loop := { loop with stack := loop.stack.tail }

def queueInLoop (loop : Loop) (tasks : List Task) : Loop :=
  { loop with functors := loop.functors.pushAll tasks }

/-- The next job of the loop thread, and the loop with the job taken off: the top of the stack, or
else the next functor of the batch. -/
def fetch (loop : Loop) : Option (Job × Loop) :=
  match loop.stack with
  | .job job :: _ => some (job, loop.pop)
  | _ :: _ => none
  | [] =>
      if loop.phase = .draining then
        match loop.functors.batch with
        | task :: _ => some (.task task, { loop with functors := loop.functors.advance })
        | [] => none
      else none

end Loop

/-- A thread of the user: its `shared_ptr` copies and the `queueInLoop` it is in. -/
structure UserThread where
  copies : List ConnId
  calling : Option Task
deriving Repr, DecidableEq

def UserThread.held (thread : UserThread) : List ConnId :=
  thread.copies ++ thread.calling.toList.flatMap Task.held

/-! ### The server -/

/-- What has happened to a connection, for the statements about its life. -/
inductive Event where
  | connectEstablished (l : LoopId)
  | handler (l : LoopId) (callback : Channel.Callback)
  | handleClose
  | connectionCallback (connected : Bool)
  | messageCallback
  | closeCallback
  | removeConnectionInLoop
  | connectDestroyed (l : LoopId)
  | connectDestroyedReturned
deriving Repr, DecidableEq

/-- A connection with its history. -/
structure Tracked where
  conn : TcpConnection
  history : List Event

/-- `connections_`: the names and what is stored under them. -/
abbrev ConnectionMap := List (String × ConnId)

namespace ConnectionMap

def contains (map : ConnectionMap) (name : String) : Bool := map.any fun entry => entry.1 == name

/-- Inserts only where the name is free. -/
def emplace (map : ConnectionMap) (name : String) (c : ConnId) : ConnectionMap :=
  if map.contains name then map else (name, c) :: map

def erase (map : ConnectionMap) (name : String) : ConnectionMap :=
  map.filter fun entry => entry.1 != name

end ConnectionMap

structure TcpServer where
  name : String
  ipPort : String
  callbacks : Callbacks
  /-- `loops_.size()` of the pool and its `next_` -/
  ioLoops : Nat
  next : Nat
  nextConnId : Nat
  connections : ConnectionMap
  /-- `~TcpServer` has begun; `destroyed`: it has ended -/
  destroying : Bool
  destroyed : Bool

structure World where
  server : TcpServer
  loops : LoopId → Loop
  conns : ConnId → Tracked
  threads : ThreadId → UserThread
  /-- number of the user's threads -/
  users : Nat
  /-- number of connections constructed, and of sockets accepted -/
  created : Nat
  accepted : Nat

/-- What a job does: to its connection, to the call stack, to one task queue and to
`connections_`. -/
structure Outcome where
  conn : TcpConnection
  events : List Event
  frames : List Frame
  target : LoopId
  queued : List Task
  connections : ConnectionMap

/-- The answers of the kernel to the system calls of one job. -/
structure Kernel where
  read : ReadResult
  write : WriteResult
deriving Repr, DecidableEq

namespace World

/-- The loop on which a functor belongs. -/
def target (w : World) : Task → LoopId
  | .removeConnectionInLoop _ => 0
  | task => (w.conns task.conn).conn.loop

def stored (w : World) (c : ConnId) : Bool := w.server.connections.any fun entry => entry.2 == c

/-- Some `shared_ptr` to the connection exists. -/
def owned (w : World) (c : ConnId) : Bool :=
  w.stored c ||
    (List.range (w.server.ioLoops + 1)).any (fun l => (w.loops l).held.contains c) ||
    (List.range w.users).any fun t => (w.threads t).held.contains c

/-! ### Changes to one part -/

def setLoop (w : World) (l : LoopId) (loop : Loop) : World :=
  { w with loops := Function.update w.loops l loop }

def setConn (w : World) (c : ConnId) (conn : TcpConnection) (events : List Event) : World :=
  { w with conns := Function.update w.conns c ⟨conn, (w.conns c).history ++ events⟩ }

def setThread (w : World) (t : ThreadId) (thread : UserThread) : World :=
  { w with threads := Function.update w.threads t thread }

def setConnections (w : World) (connections : ConnectionMap) : World :=
  { w with server := { w.server with connections := connections } }

def queueInLoop (w : World) (l : LoopId) (tasks : List Task) : World :=
  w.setLoop l ((w.loops l).queueInLoop tasks)

/-- `runInLoop` called on loop `l` for a functor that belongs on `ioLoop`. -/
def runInLoop (w : World) (l ioLoop : LoopId) (task : Task) : World :=
  if ioLoop = l then w.setLoop l ((w.loops l).push [.job (.task task)])
  else w.queueInLoop ioLoop [task]

/-- Put the outcome of a job of `c` into effect on loop `l`, whose thread continues with `loop`. -/
def commit (w : World) (l : LoopId) (loop : Loop) (c : ConnId) (outcome : Outcome) : World :=
  ((w.setConnections outcome.connections).setConn c outcome.conn outcome.events).setLoop l
    (loop.push outcome.frames) |>.queueInLoop outcome.target outcome.queued

/-! ### The jobs -/

/-- Nothing but a new value of the connection. -/
def quiet (w : World) (conn : TcpConnection) : Outcome :=
  ⟨conn, [], [], conn.loop, [], w.server.connections⟩

def connectEstablished (w : World) (l : LoopId) (c : ConnId) : Outcome :=
  let conn := (w.conns c).conn.connectEstablished
  let announce := conn.callbacks.connectionCallback
  { w.quiet conn with
    events := .connectEstablished l :: (if announce then [.connectionCallback true] else [])
    frames := if announce then [.user [c]] else [] }

def connectDestroyed (w : World) (l : LoopId) (c : ConnId) : Outcome :=
  let (conn, announce) := (w.conns c).conn.connectDestroyed
  { w.quiet conn with
    events := .connectDestroyed l :: (if announce then [.connectionCallback false] else [])
    frames := (if announce then [.user [c]] else []) ++ [.job (.removeChannel c)] }

/-- `connections_.erase` decides whether the connection is destroyed. -/
def removeConnectionInLoop (w : World) (c : ConnId) : Outcome :=
  let conn := (w.conns c).conn
  let outcome := { w.quiet conn with events := [.removeConnectionInLoop] }
  if w.server.connections.contains conn.name then
    { outcome with
      connections := w.server.connections.erase conn.name
      queued := [.connectDestroyed c] }
  else outcome

def handleClose (w : World) (c : ConnId) (conn : TcpConnection) : Outcome :=
  let conn := conn.handleClose
  let announce := conn.callbacks.connectionCallback
  { w.quiet conn with
    events := .handleClose :: (if announce then [.connectionCallback false] else [])
    frames := (if announce then [.user [c]] else []) ++ [.job (.closeCallback c)] }

/-- `removeConnection`, called through `closeCallback_`. -/
def closeCallback (w : World) (l : LoopId) (c : ConnId) : Outcome :=
  let outcome := { w.quiet (w.conns c).conn with events := [.closeCallback] }
  if l = 0 then { outcome with frames := [.job (.task (.removeConnectionInLoop c))] }
  else { outcome with target := 0, queued := [.removeConnectionInLoop c] }

def handleRead (w : World) (c : ConnId) (result : ReadResult) : Outcome :=
  let (conn, next) := (w.conns c).conn.handleRead result
  match next with
  | .message =>
      if conn.callbacks.messageCallback then
        { w.quiet conn with events := [.messageCallback], frames := [.user [c]] }
      else w.quiet conn
  | .close => w.handleClose c conn
  | .error => w.quiet conn

/-- The functors that the connection queues, under the connection's number. -/
def functor (c : ConnId) : Queued → Task
  | .writeCompleteCallback => .writeCompleteCallback c
  | .highWaterMarkCallback total => .highWaterMarkCallback c total

def handleWrite (w : World) (c : ConnId) (result : WriteResult) : Outcome :=
  let (conn, queued) := (w.conns c).conn.handleWrite result
  { w.quiet conn with queued := queued.map (functor c) }

def sendInLoop (w : World) (c : ConnId) (data : List Byte) (result : WriteResult) : Outcome :=
  let (conn, queued) := (w.conns c).conn.sendInLoop data result
  { w.quiet conn with queued := queued.map (functor c) }

/-- A user callback that begins with `shared_from_this()`, which throws on an unowned object. -/
def notify (w : World) (c : ConnId) : Outcome :=
  { w.quiet (w.conns c).conn with frames := if w.owned c then [.user [c]] else [] }

def runTask (w : World) (l : LoopId) (kernel : Kernel) : Task → Outcome
  | .connectEstablished c => w.connectEstablished l c
  | .connectDestroyed c => w.connectDestroyed l c
  | .removeConnectionInLoop c => w.removeConnectionInLoop c
  | .sendInLoop c data _ => w.sendInLoop c data kernel.write
  | .shutdownInLoop c => w.quiet (w.conns c).conn.shutdownInLoop
  | .writeCompleteCallback c => w.notify c
  | .highWaterMarkCallback c _ => w.notify c
  | .user c => { w.quiet (w.conns c).conn with frames := [.user [c]] }

def runCallback (w : World) (kernel : Kernel) (c : ConnId) : Channel.Callback → Outcome
  | .close => w.handleClose c (w.conns c).conn
  | .error => w.quiet (w.conns c).conn
  | .read => w.handleRead c kernel.read
  | .write => w.handleWrite c kernel.write

/-- What a job does when loop `l` runs it. -/
def perform (w : World) (l : LoopId) (kernel : Kernel) : Job → Outcome
  | .task task => w.runTask l kernel task
  | .callback callback c =>
      let outcome := w.runCallback kernel c callback
      { outcome with events := .handler l callback :: outcome.events }
  | .releaseGuard c => w.quiet (w.conns c).conn
  | .closeCallback c => w.closeCallback l c
  | .removeChannel c =>
      { w.quiet (w.conns c).conn.removeChannel with events := [.connectDestroyedReturned] }

/-- The kernel answers the system calls of the job within their contracts. -/
def KernelFits (w : World) (kernel : Kernel) : Job → Prop
  | .task (.sendInLoop _ data _) => kernel.write.Fits data.length
  | .callback .write c => kernel.write.Fits (w.conns c).conn.outputBuffer.readableBytes
  | .callback .read c => kernel.read.Fits (w.conns c).conn.inputBuffer.raw.readRoom
  | _ => True

/-! ### Accepting and dispatching -/

/-- `EventLoopThreadPool::getNextLoop`. -/
def getNextLoop (server : TcpServer) : LoopId × TcpServer :=
  if server.ioLoops = 0 then (0, server)
  else (1 + server.next % server.ioLoops, { server with next := (server.next + 1) % 2 ^ 32 })

/-- The name that the next connection gets. -/
def nextName (server : TcpServer) : String :=
  server.name ++ "-" ++ server.ipPort ++ "#" ++ toString server.nextConnId

/-- The constructed connection, entered under its name in `connections_` with the server's
callbacks. -/
def addConnection (w : World) (ioLoop : LoopId) (connName : String) : World :=
  { w with
    server := { w.server with connections := w.server.connections.emplace connName w.created }
    conns := Function.update w.conns w.created
      ⟨.construct w.created ioLoop connName w.server.callbacks, []⟩
    created := w.created + 1 }

/-- The counters move with every accepted socket. -/
def countAccepted (w : World) : World :=
  let server := (getNextLoop w.server).2
  { w with
    server := { server with nextConnId := (server.nextConnId + 1) % 2 ^ 32 }
    accepted := w.accepted + 1 }

/-- `TcpServer::newConnection`, called on loop `l`; `named` is whether `getsockname` succeeds. -/
def newConnection (w : World) (l : LoopId) (named : Bool) : World :=
  let (ioLoop, server) := getNextLoop w.server
  let connName := nextName server
  if named then
    (w.countAccepted.addConnection ioLoop connName).runInLoop l ioLoop
      (.connectEstablished w.created)
  else w.countAccepted

/-- `Channel::handleEvent` up to the first callback. -/
def dispatch (w : World) (c : ConnId) (revents : EpollEvents) : List Frame :=
  let callbacks := (Channel.handleEventWithGuard revents).map fun callback =>
    .job (.callback callback c)
  if (w.conns c).conn.channel.channel.tied then
    if w.owned c then callbacks ++ [.job (.releaseGuard c)] else []
  else callbacks

end World

end EduMuduo

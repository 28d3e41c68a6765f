/-
Module: EduMuduo.Core.TcpConnection
Layer: Core
Purpose: The member functions of a connection as state transformers on the connection alone.  What
  a function queues on its own loop is returned; results of system calls are arguments.  A
  function that calls back into user code is cut there: `handleClose` and `connectDestroyed` are
  given up to the callback, and the model of the server continues them.
Imports: EduMuduo.Core.SafeBuffer, EduMuduo.Core.PolledChannel
Trusted boundary: human-reviewed model
Main exports: TcpConnection, TcpConnection.sendInLoop, TcpConnection.handleWrite,
  TcpConnection.shutdownInLoop, TcpConnection.handleRead, TcpConnection.handleClose
-/
import EduMuduo.Core.SafeBuffer
import EduMuduo.Core.PolledChannel

namespace EduMuduo

def EINTR : Errno := 4
def EAGAIN : Errno := 11
def EWOULDBLOCK : Errno := 11
def EPIPE : Errno := 32

/-- An event loop by number. -/
abbrev LoopId := Nat

/-- A connection object by number, in order of construction; it stands for the object's address. -/
abbrev ConnId := Nat

/-- `TcpConnection::State`. -/
inductive State where
  | disconnected
  | connecting
  | connected
  | disconnecting
deriving Repr, DecidableEq

/-- What the kernel has seen on the connection's descriptor. -/
structure Socket where
  /-- bytes accepted by all `::write` calls, in order -/
  accepted : List Byte
  /-- number of `::write` calls -/
  writes : Nat
  /-- number of `::shutdown(fd, SHUT_WR)` calls -/
  shutdownWrites : Nat
deriving Repr, DecidableEq

namespace Socket

def fresh : Socket := ⟨[], 0, 0⟩

/-- One `::write` that took `bytes` of what it was offered. -/
def write (s : Socket) (bytes : List Byte) : Socket :=
  { s with accepted := s.accepted ++ bytes, writes := s.writes + 1 }

def shutdownWrite (s : Socket) : Socket := { s with shutdownWrites := s.shutdownWrites + 1 }

end Socket

/-- Which of the user's callbacks are set.  The server sets the close callback of every connection,
so it has no flag here. -/
structure Callbacks where
  connectionCallback : Bool
  messageCallback : Bool
  writeCompleteCallback : Bool
deriving Repr, DecidableEq

/-- A functor that a member function queues on the connection's own loop, capturing `this`. -/
inductive Queued where
  | writeCompleteCallback
  | highWaterMarkCallback (total : Nat)
deriving Repr, DecidableEq

/-- What `handleRead` goes on to do. -/
inductive ReadOutcome where
  | message
  | close
  | error
deriving Repr, DecidableEq

structure TcpConnection where
  loop : LoopId
  name : String
  state : State
  socket : Socket
  channel : PolledChannel ConnId
  inputBuffer : SafeBuffer
  outputBuffer : SafeBuffer
  callbacks : Callbacks
  highWaterMarkCallback : Bool
  highWaterMark : Nat

namespace TcpConnection

def construct (pointer : ConnId) (loop : LoopId) (name : String) (callbacks : Callbacks) :
    TcpConnection where
  loop := loop
  name := name
  state := .connecting
  socket := .fresh
  channel := .construct pointer
  inputBuffer := .construct
  outputBuffer := .construct
  callbacks := callbacks
  highWaterMarkCallback := false
  highWaterMark := 64 * 1024 * 1024

def connected (self : TcpConnection) : Bool := self.state = .connected

def isBlockingError (errno : Errno) : Bool := errno == EAGAIN || errno == EWOULDBLOCK

def setHighWaterMarkCallback (self : TcpConnection) (mark : Nat) : TcpConnection :=
  { self with highWaterMarkCallback := true, highWaterMark := mark }

/-- The first half of `sendInLoop`: write to the descriptor at once.  Returns `nwrote` and
`error`. -/
def writeDirectly (self : TcpConnection) (data : List Byte) :
    WriteResult → TcpConnection × Nat × Bool × List Queued
  | .accepted nwrote =>
      let remaining := data.length - nwrote
      ({ self with socket := self.socket.write (data.take nwrote) }, nwrote, false,
        if remaining = 0 ∧ self.callbacks.writeCompleteCallback then
          [.writeCompleteCallback]
        else [])
  | .failed errno =>
      ({ self with socket := self.socket.write [] }, 0, !isBlockingError errno, [])

/-- The second half of `sendInLoop`: keep what was not written and ask for write events. -/
def bufferRest (self : TcpConnection) (rest : List Byte) : TcpConnection × List Queued :=
  let remaining := rest.length
  let oldLen := self.outputBuffer.readableBytes
  let queued :=
    if oldLen < self.highWaterMark ∧ self.highWaterMark ≤ oldLen + remaining ∧
        self.highWaterMarkCallback then
      [.highWaterMarkCallback (oldLen + remaining)]
    else []
  let self := { self with outputBuffer := self.outputBuffer.append rest }
  if self.channel.isWriting = false then
    ({ self with channel := self.channel.change .enableWriting }, queued)
  else (self, queued)

def sendInLoop (self : TcpConnection) (data : List Byte) (result : WriteResult) :
    TcpConnection × List Queued :=
  let (self, nwrote, error, queued) :=
    if self.channel.isWriting = false ∧ self.outputBuffer.readableBytes = 0 then
      self.writeDirectly data result
    else (self, 0, false, [])
  let remaining := data.length - nwrote
  if error = false ∧ remaining > 0 then
    let (self, more) := self.bufferRest (data.drop nwrote)
    (self, queued ++ more)
  else (self, queued)

def shutdownInLoop (self : TcpConnection) : TcpConnection :=
  if self.channel.isWriting = false then { self with socket := self.socket.shutdownWrite }
  else self

def handleWrite (self : TcpConnection) (result : WriteResult) : TcpConnection × List Queued :=
  if self.channel.isWriting then
    match result with
    | .accepted n =>
        let self := { self with
          socket := self.socket.write (self.outputBuffer.contents.take n)
          outputBuffer := self.outputBuffer.writeFd (.accepted n) }
        if n > 0 then
          let self := { self with outputBuffer := self.outputBuffer.retrieve n }
          if self.outputBuffer.readableBytes = 0 then
            let self := { self with channel := self.channel.change .disableWriting }
            let queued :=
              if self.callbacks.writeCompleteCallback then [.writeCompleteCallback] else []
            if self.state = .disconnecting then (self.shutdownInLoop, queued) else (self, queued)
          else (self, [])
        else (self, [])
    | .failed _ => ({ self with socket := self.socket.write [] }, [])
  else (self, [])

def handleRead (self : TcpConnection) (result : ReadResult) : TcpConnection × ReadOutcome :=
  let self := { self with inputBuffer := self.inputBuffer.readFd result }
  match result with
  | .data bytes => (self, if bytes.length > 0 then .message else .close)
  | .failed _ => (self, .error)

/-- `handleClose` up to the first callback. -/
def handleClose (self : TcpConnection) : TcpConnection :=
  { self with state := .disconnected, channel := self.channel.change .disableAll }

/-- `connectEstablished` up to the callback. -/
def connectEstablished (self : TcpConnection) : TcpConnection :=
  { self with
    state := .connected
    channel := self.channel.tie.change .enableReading }

/-- `connectDestroyed` up to the callback, and whether the callback is to be invoked. -/
def connectDestroyed (self : TcpConnection) : TcpConnection × Bool :=
  if self.state = .connected then
    ({ self with state := .disconnected, channel := self.channel.change .disableAll },
      self.callbacks.connectionCallback)
  else ({ self with state := .disconnected }, false)

/-- The end of `connectDestroyed`. -/
def removeChannel (self : TcpConnection) : TcpConnection :=
  { self with channel := self.channel.remove }

/-- The exchange in `shutdown`, and whether `shutdownInLoop` is to be run. -/
def exchangeDisconnecting (self : TcpConnection) : TcpConnection × Bool :=
  ({ self with state := .disconnecting }, self.state = .connected)

end TcpConnection

end EduMuduo

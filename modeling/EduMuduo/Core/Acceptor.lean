/-
Module: EduMuduo.Core.Acceptor
Layer: Core
Purpose: The acceptor: its listening socket, its channel and the callback to which it hands accepted
  descriptors.  A function that may call `LOG_FATAL` returns an `Option`, and `none` is the end of
  the process; the statements behind `LOG_FATAL` are written down as in the source.  What the
  callback acts on and what it is told about the peer are parameters; for a `TcpServer` the callback
  is `newConnection`.
Imports: EduMuduo.Core.EPollPoller, EduMuduo.Core.ServerMachine
Trusted boundary: human-reviewed model
Main exports: AcceptResult, Acceptor, Acceptor.listen, Acceptor.handleRead,
  Acceptor.handleAcceptError, Acceptor.run, TcpServer.newConnectionCallback
-/
import EduMuduo.Core.EPollPoller
import EduMuduo.Core.ServerMachine

namespace EduMuduo

open Library

def ENFILE : Errno := 23
def EMFILE : Errno := 24

/-- `LOG_FATAL` writes its line and calls `std::exit`. -/
def logFatal : Option Unit := none

/-- What `::accept4` returned: a descriptor with the address of the peer, or a failure. -/
inductive AcceptResult (Address : Type) where
  | accepted (connfd : Fd) (peerAddr : Address)
  | failed (errno : Errno)
deriving Repr, DecidableEq

/-- The descriptor is not negative. -/
def AcceptResult.succeeded {Address : Type} : AcceptResult Address → Bool
  | .accepted _ _ => true
  | .failed _ => false

structure Acceptor (Address Server : Type) where
  acceptChannel : PolledChannel Unit
  newConnectionCallback : Option (Fd → Address → Server → Server)
  listenning : Bool
  /-- no member function sets it -/
  highWaterMarkCallback : Option (Server → Server)
  /-- what the callbacks act on -/
  server : Server
  /-- the descriptors handed to the callback, and those closed here -/
  handed : List Fd
  closed : List Fd

namespace Acceptor

variable {Address Server : Type}

def construct (server : Server) : Acceptor Address Server where
  acceptChannel := .construct ()
  newConnectionCallback := none
  listenning := false
  highWaterMarkCallback := none
  server := server
  handed := []
  closed := []

def setNewConnectionCallback (self : Acceptor Address Server)
    (cb : Option (Fd → Address → Server → Server)) : Acceptor Address Server :=
  { self with newConnectionCallback := cb }

/-- `listens` is whether `::listen` succeeds. -/
def listen (self : Acceptor Address Server) (listens : Bool) :
    Option (Acceptor Address Server) := do
  let self := { self with listenning := true }
  if listens = false then logFatal
  some { self with acceptChannel := self.acceptChannel.change .enableReading }

def handleAcceptError (self : Acceptor Address Server) (err : Errno) :
    Option (Acceptor Address Server) := do
  if err = EMFILE ∨ err = ENFILE then
    logFatal
    match self.highWaterMarkCallback with
    | some callback => some { self with server := callback self.server }
    | none => some self
  else
    logFatal
    some self

def handleRead (self : Acceptor Address Server) :
    AcceptResult Address → Option (Acceptor Address Server)
  | .accepted connfd peerAddr =>
      match self.newConnectionCallback with
      | some callback =>
          some { self with
            server := callback connfd peerAddr self.server
            handed := self.handed ++ [connfd] }
      | none => some { self with closed := self.closed ++ [connfd] }
  | .failed errno => self.handleAcceptError errno

/-- A sequence of readiness events, each with the answer of its `accept4`. -/
def run (self : Acceptor Address Server) :
    List (AcceptResult Address) → Option (Acceptor Address Server)
  | [] => some self
  | result :: rest => do
      let self ← self.handleRead result
      run self rest

end Acceptor

/-- The callback that the constructor of `TcpServer` installs.  Of the peer's side the server looks
only at whether `getsockname` succeeds on the new descriptor. -/
def TcpServer.newConnectionCallback (_ : Fd) (named : Bool) (w : World) : World :=
  w.newConnection 0 named

/-- An accepted socket changes the server as an active acceptor does in the runs of the server. -/
theorem Acceptor.handleRead_server (self : Acceptor Bool World) (connfd : Fd) (named : Bool)
    (installed : self.newConnectionCallback = some TcpServer.newConnectionCallback)
    (alive : self.server.server.destroyed = false) :
    (self.handleRead (.accepted connfd named)).map (·.server) =
      some (self.server.handleEvent 0 named .acceptor) := by
  simp [handleRead, installed, World.handleEvent, alive, TcpServer.newConnectionCallback]

end EduMuduo

/-
Module: EduMuduo.Core.Session
Layer: Core
Purpose: One established connection as its loop thread drives it, up to the first `handleClose`:
  messages handed to `sendInLoop`, write events, read events that do not end in a close, and
  `shutdown` calls, in any order and with any answers of the kernel.  `sent` remembers the messages
  for the statements about the output stream; the connection does not look at it.
Imports: EduMuduo.Library.Machine, EduMuduo.Core.TcpConnection
Trusted boundary: human-reviewed model
Main exports: Session, SessionEvent, session, Session.established, Session.queued, Session.pending
-/
import EduMuduo.Library.Machine
import EduMuduo.Core.TcpConnection

namespace EduMuduo

open Library

structure Session where
  conn : TcpConnection
  /-- the data of all `sendInLoop` calls so far, in order -/
  sent : List Byte

inductive SessionEvent where
  | sendInLoop (data : List Byte) (result : WriteResult)
  | handleWrite (result : WriteResult)
  | handleRead (result : ReadResult)
  | shutdown
  | shutdownInLoop
deriving Repr, DecidableEq

namespace Session

/-- A connection right after `connectEstablished`; `mark` is the argument of
`setHighWaterMarkCallback` if it was called. -/
def established (pointer : ConnId) (loop : LoopId) (name : String) (callbacks : Callbacks)
    (mark : Option Nat) : Session where
  conn :=
    let conn := (TcpConnection.construct pointer loop name callbacks).connectEstablished
    match mark with
    | some mark => conn.setHighWaterMarkCallback mark
    | none => conn
  sent := []

/-- The kernel keeps to the contracts of `write` and `readv`, and no read event ends in a close. -/
def Enabled (s : Session) : SessionEvent → Prop
  | .sendInLoop data result => result.Fits data.length
  | .handleWrite result => result.Fits s.conn.outputBuffer.readableBytes
  | .handleRead result =>
      result.Fits s.conn.inputBuffer.raw.readRoom ∧
        (s.conn.handleRead result).2 ≠ .close
  | .shutdown => True
  | .shutdownInLoop => True

instance (s : Session) : ∀ event, Decidable (s.Enabled event)
  | .sendInLoop data result => inferInstanceAs (Decidable (result.Fits data.length))
  | .handleWrite result =>
      inferInstanceAs (Decidable (result.Fits s.conn.outputBuffer.readableBytes))
  | .handleRead _ => inferInstanceAs (Decidable (_ ∧ _))
  | .shutdown | .shutdownInLoop => inferInstanceAs (Decidable True)

def next (s : Session) : SessionEvent → Session
  | .sendInLoop data result =>
      { conn := (s.conn.sendInLoop data result).1, sent := s.sent ++ data }
  | .handleWrite result => { s with conn := (s.conn.handleWrite result).1 }
  | .handleRead result => { s with conn := (s.conn.handleRead result).1 }
  | .shutdown => { s with conn := s.conn.exchangeDisconnecting.1 }
  | .shutdownInLoop => { s with conn := s.conn.shutdownInLoop }

/-- The functors that an event queues on the loop. -/
def queued (s : Session) : SessionEvent → List Queued
  | .sendInLoop data result => (s.conn.sendInLoop data result).2
  | .handleWrite result => (s.conn.handleWrite result).2
  | .handleRead _ | .shutdown | .shutdownInLoop => []

/-- `outputBuffer_.readableBytes()`. -/
def pending (s : Session) : Nat := s.conn.outputBuffer.readableBytes

end Session

/-- The runs of an established connection. -/
def session : Machine Session SessionEvent where
  initial s := ∃ pointer loop name callbacks mark,
    s = .established pointer loop name callbacks mark
  enabled := Session.Enabled
  next := Session.next

instance (s : Session) (event : SessionEvent) : Decidable (session.enabled s event) :=
  inferInstanceAs (Decidable (s.Enabled event))

end EduMuduo

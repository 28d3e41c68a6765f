/-
Module: EduMuduo.Core.EPollPoller
Layer: Core
Purpose: The poller with any number of channels: the channel objects, the `channels_` map and the
  interest list of the kernel, each keyed as in the source, so that an operation on one channel
  could in principle disturb another one.  `epoll_ctl` calls that fail are written down, since the
  code logs them, and end the process unless they are deletions.
Imports: EduMuduo.Core.Channel, EduMuduo.Library.Machine, Mathlib.Logic.Function.Basic
Trusted boundary: human-reviewed model
Main exports: EPollPoller, EPollPoller.updateChannel, EPollPoller.removeChannel,
  EPollPoller.hasChannel, epollPoller
-/
import EduMuduo.Core.Channel
import EduMuduo.Library.Machine
import Mathlib.Logic.Function.Basic

namespace EduMuduo

open Library

/-- A file descriptor. -/
abbrev Fd := Nat

structure EPollPoller (Pointer : Type) where
  /-- `fd_` of the channel objects, and their changing members -/
  fd : Pointer → Fd
  channel : Pointer → Channel
  /-- `channels_` -/
  channels : Fd → Option Pointer
  /-- what the kernel holds for `epollfd_` -/
  interestList : Fd → Option (Pointer × EpollEvents)
  /-- the `epoll_ctl` calls that returned an error -/
  failed : List (EpollOp × Fd)
  exited : Bool

namespace EPollPoller

variable {Pointer : Type} [DecidableEq Pointer]

/-- Constructed channels with these descriptors, and nothing registered. -/
def construct (fd : Pointer → Fd) : EPollPoller Pointer where
  fd := fd
  channel := fun _ => .construct
  channels := fun _ => none
  interestList := fun _ => none
  failed := []
  exited := false

def setChannel (self : EPollPoller Pointer) (c : Pointer) (channel : Channel) :
    EPollPoller Pointer :=
  { self with channel := Function.update self.channel c channel }

def set_index (self : EPollPoller Pointer) (c : Pointer) (index : ChannelState) :
    EPollPoller Pointer :=
  self.setChannel c { self.channel c with index := index }

def updateOperation (self : EPollPoller Pointer) (operation : EpollOp) (c : Pointer) :
    EPollPoller Pointer :=
  let fd := self.fd c
  match epollCtl (self.interestList fd) operation (c, (self.channel c).events) with
  | some entry => { self with interestList := Function.update self.interestList fd entry }
  | none =>
      { self with
        failed := self.failed ++ [(operation, fd)]
        exited := self.exited || operation ≠ .del }

def updateChannel (self : EPollPoller Pointer) (c : Pointer) : EPollPoller Pointer :=
  let fd := self.fd c
  let index := (self.channel c).index
  if index = .kNew ∨ index = .kDeleted then
    let self :=
      if index = .kNew then { self with channels := Function.update self.channels fd (some c) }
      else self
    (self.set_index c .kAdded).updateOperation .add c
  else if (self.channel c).isNoneEvent then
    (self.updateOperation .del c).set_index c .kDeleted
  else self.updateOperation .mod c

def removeChannel (self : EPollPoller Pointer) (c : Pointer) : EPollPoller Pointer :=
  let self := { self with channels := Function.update self.channels (self.fd c) none }
  let self := if (self.channel c).index = .kAdded then self.updateOperation .del c else self
  self.set_index c .kNew

/-- `Poller::hasChannel`. -/
def hasChannel (self : EPollPoller Pointer) (c : Pointer) : Bool :=
  self.channels (self.fd c) = some c

/-- A member function of a channel that ends in the poller. -/
inductive Operation where
  | change (interest : Channel.Interest)
  | remove
deriving Repr, DecidableEq

/-- `enableReading` and its siblings store the new mask and call `update()`. -/
def next (self : EPollPoller Pointer) (c : Pointer) : Operation → EPollPoller Pointer
  | .change interest =>
      (self.setChannel c { self.channel c with
        events := interest.apply (self.channel c).events }).updateChannel c
  | .remove => self.removeChannel c

end EPollPoller

/-- All sequences of operations on channels with distinct descriptors, until the process exits. -/
def epollPoller (Pointer : Type) [DecidableEq Pointer] :
    Machine (EPollPoller Pointer) (Pointer × EPollPoller.Operation) where
  initial self := ∃ fd, Function.Injective fd ∧ self = .construct fd
  enabled self _ := self.exited = false
  next self a := self.next a.1 a.2

instance (Pointer : Type) [DecidableEq Pointer] (self : EPollPoller Pointer)
    (a : Pointer × EPollPoller.Operation) : Decidable ((epollPoller Pointer).enabled self a) :=
  inferInstanceAs (Decidable (_ = _))

end EduMuduo

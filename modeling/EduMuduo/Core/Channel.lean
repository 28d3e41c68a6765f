/-
Module: EduMuduo.Core.Channel
Layer: Core
Purpose: A channel and what the poller and the kernel hold for its file descriptor.  The poller's
  `channels_` map and the kernel's interest list are both keyed by descriptor, so a channel meets
  them in one slot; slots of distinct descriptors do not touch each other.  `epoll_ctl` follows its
  contract (ADD on an absent entry, MOD and DEL on a present one); a failed ADD or MOD ends the
  process, a failed DEL is only logged.
Imports: Mathlib.Data.Nat.Notation
Trusted boundary: human-reviewed model
Main exports: EpollEvents, Channel, Slot, Slot.updateChannel, Slot.removeChannel,
  Channel.Interest, Channel.change, Channel.handleEventWithGuard
-/
import Mathlib.Data.Nat.Notation

namespace EduMuduo

/-- A set of `EPOLL*` flags. -/
abbrev EpollEvents := BitVec 32

def EPOLLIN : EpollEvents := 0x001
def EPOLLPRI : EpollEvents := 0x002
def EPOLLOUT : EpollEvents := 0x004
def EPOLLERR : EpollEvents := 0x008
def EPOLLHUP : EpollEvents := 0x010

/-- The C idiom `mask & flags` used as a condition. -/
def EpollEvents.has (mask flags : EpollEvents) : Bool := mask &&& flags != 0

/-- `EPollPoller::KNew`, `KAdded` and `KDeleted`, the values of `Channel::index_`. -/
inductive ChannelState where
  | kNew
  | kAdded
  | kDeleted
deriving Repr, DecidableEq

structure Channel where
  events : EpollEvents
  index : ChannelState
  tied : Bool
deriving Repr, DecidableEq

namespace Channel

def kNoneEvent : EpollEvents := 0
def kReadEvent : EpollEvents := EPOLLIN ||| EPOLLPRI
def kWriteEvent : EpollEvents := EPOLLOUT

/-- The constructor: no interest, never registered, not tied. -/
def construct : Channel := ⟨kNoneEvent, .kNew, false⟩

def isNoneEvent (c : Channel) : Bool := c.events == kNoneEvent
def isWriting (c : Channel) : Bool := EpollEvents.has c.events kWriteEvent
def isReading (c : Channel) : Bool := EpollEvents.has c.events kReadEvent

end Channel

/-! ### The poller's side -/

/-- The state kept under one file descriptor: the entry of `channels_` and the entry of the
kernel's interest list, which carries `event.data.ptr` and `event.events`. -/
structure Slot (Pointer : Type) where
  channels : Option Pointer
  epoll : Option (Pointer × EpollEvents)
deriving Repr, DecidableEq

inductive EpollOp where
  | add
  | mod
  | del
deriving Repr, DecidableEq

/-- `::epoll_ctl` on the kernel entry of one descriptor; `none` is a negative return value. -/
def epollCtl {Pointer : Type} (entry : Option (Pointer × EpollEvents)) (op : EpollOp)
    (event : Pointer × EpollEvents) : Option (Option (Pointer × EpollEvents)) :=
  match op, entry with
  | .add, none => some (some event)
  | .mod, some _ => some (some event)
  | .del, some _ => some none
  | _, _ => none

namespace Slot

variable {Pointer : Type}

/-- A descriptor that the poller has never seen. -/
def empty : Slot Pointer := ⟨none, none⟩

/-- `none` is the branch that calls `exit(EXIT_FAILURE)`. -/
def updateOperation (slot : Slot Pointer) (op : EpollOp) (pointer : Pointer)
    (channel : Channel) : Option (Slot Pointer) :=
  match epollCtl slot.epoll op (pointer, channel.events) with
  | some entry => some { slot with epoll := entry }
  | none => if op = .del then some slot else none

def updateChannel (slot : Slot Pointer) (pointer : Pointer) (channel : Channel) :
    Option (Slot Pointer × Channel) :=
  match channel.index with
  | .kNew => do
      let slot := { slot with channels := some pointer }
      let slot ← slot.updateOperation .add pointer channel
      some (slot, { channel with index := .kAdded })
  | .kDeleted => do
      let slot ← slot.updateOperation .add pointer channel
      some (slot, { channel with index := .kAdded })
  | .kAdded =>
      if channel.isNoneEvent then do
        let slot ← slot.updateOperation .del pointer channel
        some (slot, { channel with index := .kDeleted })
      else do
        let slot ← slot.updateOperation .mod pointer channel
        some (slot, channel)

def removeChannel (slot : Slot Pointer) (pointer : Pointer) (channel : Channel) :
    Option (Slot Pointer × Channel) := do
  let slot := { slot with channels := none }
  let slot ←
    if channel.index = .kAdded then slot.updateOperation .del pointer channel else some slot
  some (slot, { channel with index := .kNew })

/-- `Poller::hasChannel`. -/
def hasChannel [DecidableEq Pointer] (slot : Slot Pointer) (pointer : Pointer) : Bool :=
  slot.channels = some pointer

end Slot

/-! ### The channel's side -/

namespace Channel

def tie (c : Channel) : Channel := { c with tied := true }

/-- The interest mask that each `enable`/`disable` function stores before it calls `update`. -/
inductive Interest where
  | enableReading
  | disableReading
  | enableWriting
  | disableWriting
  | disableAll
deriving Repr, DecidableEq

def Interest.apply (events : EpollEvents) : Interest → EpollEvents
  | .enableReading => events ||| kReadEvent
  | .disableReading => events &&& ~~~kReadEvent
  | .enableWriting => events ||| kWriteEvent
  | .disableWriting => events &&& ~~~kWriteEvent
  | .disableAll => kNoneEvent

/-- Store the new mask, then `update()`, which ends in `EPollPoller::updateChannel`. -/
def change {Pointer : Type} (c : Channel) (slot : Slot Pointer) (pointer : Pointer)
    (interest : Interest) : Option (Slot Pointer × Channel) :=
  slot.updateChannel pointer { c with events := interest.apply c.events }

/-- The callbacks that one dispatch invokes, in order. -/
inductive Callback where
  | close
  | error
  | read
  | write
deriving Repr, DecidableEq

/-- `handleEventWithGuard`: `revents_` is not looked at again after a callback, so it selects all of
them at once. -/
def handleEventWithGuard (revents : EpollEvents) : List Callback :=
  (if revents.has EPOLLHUP && !revents.has EPOLLIN then [.close] else []) ++
  (if revents.has EPOLLERR then [.error] else []) ++
  (if revents.has (EPOLLIN ||| EPOLLPRI) then [.read] else []) ++
  (if revents.has EPOLLOUT then [.write] else [])

end Channel

end EduMuduo

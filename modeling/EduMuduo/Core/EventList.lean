/-
Module: EduMuduo.Core.EventList
Layer: Core
Purpose: `EPollPoller::poll`: the array `events_` into which `epoll_wait` writes, the loop that turns
  its elements into active channels, and its growth.  An access beyond the end of the array or
  through a null `data.ptr` gives `none`.  `epoll_wait` follows its contract: it reports descriptors
  that are pending, with the pointer under which they are registered, and as many of them as fit.
Imports: EduMuduo.Core.EPollPoller, EduMuduo.Core.Buffer
Trusted boundary: human-reviewed model
Main exports: EpollEvent, PollingPoller, PollingPoller.fillActiveChannels, PollingPoller.poll,
  pollingPoller
-/
import EduMuduo.Core.EPollPoller
import EduMuduo.Core.Buffer

namespace EduMuduo

open Library

/-- `struct epoll_event`; a null `data.ptr` is `none`. -/
structure EpollEvent (Pointer : Type) where
  events : EpollEvents
  ptr : Option Pointer
deriving Repr, DecidableEq

/-- What `std::vector` puts into new elements. -/
def EpollEvent.zero {Pointer : Type} : EpollEvent Pointer := ⟨0, none⟩

/-- A descriptor on which something is pending, and what. -/
structure Pending where
  fd : Fd
  revents : EpollEvents
deriving Repr, DecidableEq

/-- How `epoll_wait` ends: with what is pending by then, which is nothing after the timeout, or with
an error. -/
inductive WaitResult where
  | returned (pending : List Pending)
  | failed (errno : Errno)
deriving Repr, DecidableEq

structure PollingPoller (Pointer : Type) extends EPollPoller Pointer where
  /-- `events_` -/
  eventList : List (EpollEvent Pointer)
  /-- `revents_` of the channel objects -/
  revents : Pointer → EpollEvents

namespace PollingPoller

variable {Pointer : Type}

def kInitEventListSize : Nat := 16

/-- Constructed channels with these descriptors, and nothing registered. -/
def construct (fd : Pointer → Fd) : PollingPoller Pointer where
  toEPollPoller := .construct fd
  eventList := List.replicate kInitEventListSize .zero
  revents := fun _ => 0

/-- What the kernel may find pending: a registered descriptor at most once, with flags that were
asked for or that are always reported. -/
def Pends (self : PollingPoller Pointer) (pending : List Pending) : Prop :=
  (pending.map Pending.fd).Nodup ∧ ∀ p ∈ pending, ∃ entry ∈ self.interestList p.fd,
    p.revents &&& ~~~(entry.2 ||| EPOLLERR ||| EPOLLHUP) = 0

instance (self : PollingPoller Pointer) (pending : List Pending) :
    Decidable (self.Pends pending) :=
  inferInstanceAs (Decidable (_ ∧ ∀ p ∈ pending, ∃ entry ∈ self.interestList p.fd, _))

/-- `::epoll_wait`. -/
def epollWait (self : PollingPoller Pointer) (pending : List Pending) (maxevents : Nat) :
    List (EpollEvent Pointer) :=
  (pending.take maxevents).map fun p => ⟨p.revents, (self.interestList p.fd).map Prod.fst⟩

variable [DecidableEq Pointer]

/-- The body of the loop. -/
def activate (self : PollingPoller Pointer) (activeChannels : List Pointer) (i : Nat) :
    Option (PollingPoller Pointer × List Pointer) := do
  let event ← self.eventList[i]?
  let channel ← event.ptr
  some ({ self with revents := Function.update self.revents channel event.events },
    activeChannels ++ [channel])

def fillActiveChannels (self : PollingPoller Pointer) (numEvents : Nat)
    (activeChannels : List Pointer) : Option (PollingPoller Pointer × List Pointer) :=
  (List.range numEvents).foldlM (fun state i => state.1.activate state.2 i) (self, activeChannels)

def poll (self : PollingPoller Pointer) (activeChannels : List Pointer) :
    WaitResult → Option (PollingPoller Pointer × List Pointer)
  | .returned pending => do
      let filled := self.epollWait pending self.eventList.length
      let numEvents := filled.length
      let self := { self with eventList := filled ++ self.eventList.drop numEvents }
      if numEvents > 0 then
        let (self, activeChannels) ← self.fillActiveChannels numEvents activeChannels
        if numEvents = self.eventList.length then
          some ({ self with
            eventList := self.eventList ++ List.replicate self.eventList.length .zero },
            activeChannels)
        else some (self, activeChannels)
      else some (self, activeChannels)
  -- the error is logged, unless it is `EINTR`
  | .failed _ => some (self, activeChannels)

inductive Action (Pointer : Type) where
  | operate (c : Pointer) (operation : EPollPoller.Operation)
  | poll (result : WaitResult)
deriving Repr, DecidableEq

def Enabled (self : PollingPoller Pointer) : Action Pointer → Prop
  | .operate _ _ => self.exited = false
  | .poll (.returned pending) => self.exited = false ∧ self.Pends pending
  | .poll (.failed _) => self.exited = false

instance (self : PollingPoller Pointer) : ∀ action, Decidable (self.Enabled action)
  | .operate _ _ | .poll (.failed _) => inferInstanceAs (Decidable (_ = _))
  | .poll (.returned _) => inferInstanceAs (Decidable (_ ∧ _))

/-- `loop()` clears `activeChannels_` before each `poll`.  A poll that goes astray ends the process
at best. -/
def next (self : PollingPoller Pointer) : Action Pointer → PollingPoller Pointer
  | .operate c operation => { self with toEPollPoller := self.toEPollPoller.next c operation }
  | .poll result =>
      match self.poll [] result with
      | some (self, _) => self
      | none => { self with exited := true }

end PollingPoller

/-- All sequences of polls and of operations on channels with distinct descriptors. -/
def pollingPoller (Pointer : Type) [DecidableEq Pointer] :
    Machine (PollingPoller Pointer) (PollingPoller.Action Pointer) where
  initial self := ∃ fd, Function.Injective fd ∧ self = .construct fd
  enabled := PollingPoller.Enabled
  next := PollingPoller.next

instance (Pointer : Type) [DecidableEq Pointer] (self : PollingPoller Pointer)
    (action : PollingPoller.Action Pointer) :
    Decidable ((pollingPoller Pointer).enabled self action) :=
  inferInstanceAs (Decidable (self.Enabled action))

end EduMuduo

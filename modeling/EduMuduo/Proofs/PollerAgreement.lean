/-
Module: EduMuduo.Proofs.PollerAgreement
Layer: Proofs
Purpose: The channels, the `channels_` map and the interest list of the kernel agree, for any number
  of channels.  An operation on a channel that agrees with its slot replaces that channel and that
  slot by ones that agree, and touches no other descriptor; so every channel with its slot is a
  `PolledChannel`, and an operation on it is the one that the connections use.
Imports: EduMuduo.Core.EPollPoller, EduMuduo.Core.PolledChannel
Trusted boundary: none
Main exports: EPollPoller.InStep, EPollPoller.next_eq, EPollPoller.next_polled, inStep,
  channels_map_and_kernel_agree
-/
import EduMuduo.Core.EPollPoller
import EduMuduo.Core.PolledChannel

namespace EduMuduo

open Library

namespace EPollPoller

variable {Pointer : Type}

/-- What the poller and the kernel hold for the descriptor of a channel. -/
def slot (self : EPollPoller Pointer) (c : Pointer) : Slot Pointer :=
  ⟨self.channels (self.fd c), self.interestList (self.fd c)⟩

/-- What an operation makes of its channel. -/
def Operation.apply (channel : Channel) : Operation → Channel
  | .change interest => { channel with events := interest.apply channel.events }.updated
  | .remove => channel.removed

/-- The map and the list of a channel that agrees with its slot. -/
theorem channels_of_agree {self : EPollPoller Pointer} {c : Pointer}
    (agree : self.slot c = Slot.expected c (self.channel c)) :
    self.channels (self.fd c) = if (self.channel c).index = .kNew then none else some c :=
  congrArg Slot.channels agree

theorem interestList_of_agree {self : EPollPoller Pointer} {c : Pointer}
    (agree : self.slot c = Slot.expected c (self.channel c)) :
    self.interestList (self.fd c) =
      if (self.channel c).index = .kAdded then some (c, (self.channel c).events) else none :=
  congrArg Slot.epoll agree

variable [DecidableEq Pointer]

/-- The channel replaced, and its slot by the one that agrees with it. -/
def put (self : EPollPoller Pointer) (c : Pointer) (channel : Channel) : EPollPoller Pointer :=
  { self with
    channel := Function.update self.channel c channel
    channels := Function.update self.channels (self.fd c) (Slot.expected c channel).channels
    interestList := Function.update self.interestList (self.fd c) (Slot.expected c channel).epoll }

/-- From agreement `updateChannel` succeeds, whatever mask was stored before it. -/
theorem updateChannel_eq {self : EPollPoller Pointer} {c : Pointer}
    (agree : self.slot c = Slot.expected c (self.channel c)) (events : EpollEvents) :
    (self.setChannel c { self.channel c with events := events }).updateChannel c =
      self.put c { self.channel c with events := events }.updated := by
  have map := channels_of_agree agree
  have list := interestList_of_agree agree
  cases index : (self.channel c).index with
  | kNew =>
      rw [index, if_neg (by decide)] at list
      simp [updateChannel, setChannel, set_index, updateOperation, put, Slot.expected,
        Channel.updated, epollCtl, index, list]
  | kDeleted =>
      rw [index, if_neg (by decide)] at list map
      have same : Function.update self.channels (self.fd c) (some c) = self.channels := by
        rw [← map, Function.update_eq_self]
      simp [updateChannel, setChannel, set_index, updateOperation, put, Slot.expected,
        Channel.updated, epollCtl, index, list, same]
  | kAdded =>
      rw [index, if_pos rfl] at list
      rw [index, if_neg (by decide)] at map
      have same : Function.update self.channels (self.fd c) (some c) = self.channels := by
        rw [← map, Function.update_eq_self]
      cases none : events == Channel.kNoneEvent with
      | true =>
          simp [updateChannel, setChannel, set_index, updateOperation, put, Slot.expected,
            Channel.updated, Channel.isNoneEvent, epollCtl, index, list, same, none]
      | false =>
          simp [updateChannel, setChannel, updateOperation, put, Slot.expected,
            Channel.updated, Channel.isNoneEvent, epollCtl, index, list, same, none]

/-- So does `removeChannel`. -/
theorem removeChannel_eq {self : EPollPoller Pointer} {c : Pointer}
    (agree : self.slot c = Slot.expected c (self.channel c)) :
    self.removeChannel c = self.put c (self.channel c).removed := by
  have list := interestList_of_agree agree
  cases index : (self.channel c).index with
  | kAdded =>
      rw [index, if_pos rfl] at list
      simp [removeChannel, setChannel, set_index, updateOperation, put, Slot.expected,
        Channel.removed, epollCtl, index, list]
  | kNew =>
      rw [index, if_neg (by decide)] at list
      have same : Function.update self.interestList (self.fd c) none = self.interestList := by
        rw [← list, Function.update_eq_self]
      simp [removeChannel, setChannel, set_index, put, Slot.expected, Channel.removed, index, same]
  | kDeleted =>
      rw [index, if_neg (by decide)] at list
      have same : Function.update self.interestList (self.fd c) none = self.interestList := by
        rw [← list, Function.update_eq_self]
      simp [removeChannel, setChannel, set_index, put, Slot.expected, Channel.removed, index, same]

theorem next_eq {self : EPollPoller Pointer} {c : Pointer}
    (agree : self.slot c = Slot.expected c (self.channel c)) (operation : Operation) :
    self.next c operation = self.put c (operation.apply (self.channel c)) := by
  cases operation with
  | change interest => exact updateChannel_eq agree _
  | remove => exact removeChannel_eq agree

/-! ### The agreement -/

/-- Every channel agrees with its slot, and no call has failed. -/
structure InStep (poller : EPollPoller Pointer) : Prop where
  distinct : Function.Injective poller.fd
  agree : ∀ c, poller.slot c = Slot.expected c (poller.channel c)
  failed : poller.failed = []
  exited : poller.exited = false

theorem put_channel (self : EPollPoller Pointer) (c : Pointer) (channel : Channel) :
    (self.put c channel).channel = Function.update self.channel c channel := rfl

theorem put_slot (self : EPollPoller Pointer) (c : Pointer) (channel : Channel) :
    (self.put c channel).slot c = Slot.expected c channel := by
  simp [slot, put]

theorem put_slot_of_ne {self : EPollPoller Pointer} (distinct : Function.Injective self.fd)
    {c c' : Pointer} (other : c' ≠ c) (channel : Channel) :
    (self.put c channel).slot c' = self.slot c' := by
  simp [slot, put, distinct.ne other]

theorem InStep.next {self : EPollPoller Pointer} (inStep : self.InStep) (c : Pointer)
    (operation : Operation) : (self.next c operation).InStep := by
  rw [next_eq (inStep.agree c)]
  refine ⟨inStep.distinct, fun c' => ?_, inStep.failed, inStep.exited⟩
  by_cases same : c' = c
  · subst same
    rw [put_slot, put_channel, Function.update_self]
  · rw [put_slot_of_ne inStep.distinct same, inStep.agree c', put_channel,
      Function.update_of_ne same]

/-- A channel of a poller in step, with its slot. -/
def InStep.polled {self : EPollPoller Pointer} (inStep : self.InStep) (c : Pointer) :
    PolledChannel Pointer := ⟨c, self.channel c, self.slot c, inStep.agree c⟩

/-- The operations are those of a `PolledChannel`. -/
theorem InStep.next_polled {self : EPollPoller Pointer} (inStep : self.InStep) (c : Pointer)
    (operation : Operation) :
    (inStep.next c operation).polled c = match operation with
      | .change interest => (inStep.polled c).change interest
      | .remove => (inStep.polled c).remove := by
  have channel : ((inStep.next c operation).polled c).channel =
      operation.apply (inStep.polled c).channel := by
    change (self.next c operation).channel c = operation.apply (self.channel c)
    rw [next_eq (inStep.agree c), put_channel, Function.update_self]
  cases operation with
  | change interest =>
      refine PolledChannel.eq_of_channel ?_ (channel.trans ?_)
      · exact ((inStep.polled c).change_pointer interest).symm
      · exact ((inStep.polled c).change_channel interest).symm
  | remove =>
      refine PolledChannel.eq_of_channel ?_ (channel.trans ?_)
      · exact (inStep.polled c).remove_pointer.symm
      · exact (inStep.polled c).remove_channel.symm

/-- What the three copies of the registration of a channel have to do with each other. -/
structure Agrees (poller : EPollPoller Pointer) (c : Pointer) : Prop where
  added_iff : (poller.channel c).index = .kAdded ↔ (poller.interestList (poller.fd c)).isSome = true
  entry : ∀ held ∈ poller.interestList (poller.fd c), held = (c, (poller.channel c).events)
  mapped_iff : poller.channels (poller.fd c) = some c ↔ (poller.channel c).index ≠ .kNew
  hasChannel_iff : poller.hasChannel c = true ↔
    (poller.channel c).index = .kAdded ∨ (poller.channel c).index = .kDeleted

theorem InStep.agrees {self : EPollPoller Pointer} (inStep : self.InStep) (c : Pointer) :
    self.Agrees c := by
  have map := channels_of_agree (inStep.agree c)
  have list := interestList_of_agree (inStep.agree c)
  refine ⟨?_, ?_, ?_, ?_⟩
  · rw [list]
    split <;> simp [*]
  · rw [list]
    split <;> simp
  · rw [map]
    split <;> simp [*]
  · rw [hasChannel, decide_eq_true_iff, map]
    cases (self.channel c).index <;> simp

end EPollPoller

variable {Pointer : Type} [DecidableEq Pointer]

theorem inStep {self : EPollPoller Pointer} (reachable : (epollPoller Pointer).Reachable self) :
    self.InStep := by
  refine reachable.invariant (I := EPollPoller.InStep) ?_
    fun _ a _ inStep _ => inStep.next a.1 a.2
  rintro _ ⟨fd, distinct, rfl⟩
  exact ⟨distinct, fun _ => rfl, rfl, rfl⟩

/-- After every sequence of operations on any number of channels with distinct descriptors, each
channel agrees with the map and the kernel, no `epoll_ctl` call has failed, the process has not
exited, and one more operation leaves the other channels and whatever is held for them alone. -/
theorem channels_map_and_kernel_agree {self : EPollPoller Pointer}
    (reachable : (epollPoller Pointer).Reachable self) :
    (∀ c, self.Agrees c) ∧ self.failed = [] ∧ self.exited = false ∧
      ∀ c operation c', c' ≠ c →
        (self.next c operation).channel c' = self.channel c' ∧
          (self.next c operation).channels (self.fd c') = self.channels (self.fd c') ∧
            (self.next c operation).interestList (self.fd c') = self.interestList (self.fd c') := by
  have inStep := inStep reachable
  refine ⟨inStep.agrees, inStep.failed, inStep.exited, fun c operation c' other => ?_⟩
  have slot := EPollPoller.put_slot_of_ne inStep.distinct other
    (operation.apply (self.channel c))
  rw [← EPollPoller.next_eq (inStep.agree c)] at slot
  have fd : (self.next c operation).fd = self.fd := by
    rw [EPollPoller.next_eq (inStep.agree c)]
    rfl
  rw [EPollPoller.slot, EPollPoller.slot, fd] at slot
  refine ⟨?_, congrArg Slot.channels slot, congrArg Slot.epoll slot⟩
  rw [EPollPoller.next_eq (inStep.agree c), EPollPoller.put_channel, Function.update_of_ne other]

/-- The hypothesis is met by two channels of which one is enabled, disabled and enabled again. -/
theorem channels_map_and_kernel_agree_demo :
    ((epollPoller Bool).exec (.construct fun c => if c then 7 else 5)
      [(true, .change .enableReading), (false, .change .disableAll), (true, .change .disableAll),
        (false, .remove), (true, .change .enableWriting)]).Agrees true := by
  have admitted : (epollPoller Bool).Admits (.construct fun c => if c then 7 else 5)
      [(true, .change .enableReading), (false, .change .disableAll), (true, .change .disableAll),
        (false, .remove), (true, .change .enableWriting)] := by decide
  have distinct : Function.Injective fun c : Bool => if c then 7 else 5 := by
    unfold Function.Injective
    decide
  exact (channels_map_and_kernel_agree (admitted.reachable ⟨_, distinct, rfl⟩)).1 true

end EduMuduo

/-
Module: EduMuduo.Core.PolledChannel
Layer: Core
Purpose: A channel together with its slot of the poller and the kernel, and the proof that the
  three agree: the index says exactly what `channels_` and the interest list hold.  Every member
  function of the channel keeps the agreement, hence no `epoll_ctl` call fails, and what a function
  does to the slot can be read off the channel.
Imports: EduMuduo.Core.Channel
Trusted boundary: none
Main exports: Slot.expected, Channel.updated, Slot.updateChannel_expected, PolledChannel,
  PolledChannel.change, PolledChannel.remove, PolledChannel.registered
-/
import EduMuduo.Core.Channel

namespace EduMuduo

namespace Slot

variable {Pointer : Type}

/-- The slot that a channel with this index and mask must have. -/
def expected (pointer : Pointer) (channel : Channel) : Slot Pointer where
  channels := if channel.index = .kNew then none else some pointer
  epoll := if channel.index = .kAdded then some (pointer, channel.events) else none

end Slot

namespace Channel

/-- What `updateChannel` makes of the index. -/
def updated (c : Channel) : Channel :=
  { c with
    index := match c.index with
      | .kNew | .kDeleted => .kAdded
      | .kAdded => if c.isNoneEvent then .kDeleted else .kAdded }

/-- What `removeChannel` makes of the index. -/
def removed (c : Channel) : Channel := { c with index := .kNew }

/-! ### Interest masks -/

theorem has_iff_getLsbD (mask : EpollEvents) (i : Nat) (small : i < 32) :
    mask.has (BitVec.twoPow 32 i) = mask.getLsbD i := by
  rw [EpollEvents.has, BitVec.and_twoPow]
  split
  · rename_i set
    rw [set, bne_iff_ne]
    intro zero
    have := congrArg (fun v => v.getLsbD i) zero
    simp [small] at this
  · rename_i clear
    simpa using clear

theorem isWriting_eq (c : Channel) : c.isWriting = c.events.getLsbD 2 :=
  has_iff_getLsbD c.events 2 (by decide)

theorem Interest.writing_apply (events : EpollEvents) (interest : Interest) :
    (interest.apply events).getLsbD 2 = match interest with
      | .enableReading | .disableReading => events.getLsbD 2
      | .enableWriting => true
      | .disableWriting | .disableAll => false := by
  cases interest <;>
    simp [Interest.apply, kReadEvent, kWriteEvent, kNoneEvent, EPOLLIN, EPOLLPRI, EPOLLOUT]

theorem Interest.reading_apply (events : EpollEvents) (interest : Interest) :
    (interest.apply events).getLsbD 0 = match interest with
      | .enableReading => true
      | .enableWriting | .disableWriting => events.getLsbD 0
      | .disableReading | .disableAll => false := by
  cases interest <;>
    simp [Interest.apply, kReadEvent, kWriteEvent, kNoneEvent, EPOLLIN, EPOLLPRI, EPOLLOUT]

theorem isNoneEvent_eq_false_of_bit {c : Channel} {i : Nat} (set : c.events.getLsbD i = true) :
    c.isNoneEvent = false := by
  rw [isNoneEvent, beq_eq_false_iff_ne]
  intro none
  rw [none] at set
  simp [kNoneEvent] at set

end Channel

namespace Slot

variable {Pointer : Type}

/-- From a slot that agreed before the mask changed, `updateChannel` succeeds and the new slot
agrees with the new index and mask. -/
theorem updateChannel_expected (pointer : Pointer) (c : Channel) (events : EpollEvents) :
    (expected pointer c).updateChannel pointer { c with events := events } =
      some (expected pointer { c with events := events }.updated,
        { c with events := events }.updated) := by
  rcases c with ⟨old, index, tied⟩
  cases index with
  | kNew => rfl
  | kDeleted => rfl
  | kAdded =>
      simp only [updateChannel, Channel.updated, expected]
      split <;> rfl

/-- `removeChannel` succeeds on a slot that agrees with the channel. -/
theorem removeChannel_expected (pointer : Pointer) (c : Channel) :
    (expected pointer c).removeChannel pointer c =
      some (expected pointer c.removed, c.removed) := by
  rcases c with ⟨old, index, tied⟩
  cases index <;> rfl

end Slot

/-- A channel, its slot, and their agreement. -/
structure PolledChannel (Pointer : Type) where
  pointer : Pointer
  channel : Channel
  slot : Slot Pointer
  agree : slot = Slot.expected pointer channel

namespace PolledChannel

variable {Pointer : Type}

def construct (pointer : Pointer) : PolledChannel Pointer :=
  ⟨pointer, .construct, .empty, rfl⟩

def tie (p : PolledChannel Pointer) : PolledChannel Pointer :=
  ⟨p.pointer, p.channel.tie, p.slot, p.agree⟩

/-- `enableReading` and its siblings.  The branch that ends the process is never taken. -/
def change (p : PolledChannel Pointer) (interest : Channel.Interest) : PolledChannel Pointer :=
  match changed : p.channel.change p.slot p.pointer interest with
  | some (slot, channel) => ⟨p.pointer, channel, slot, by
      rw [Channel.change, p.agree, Slot.updateChannel_expected] at changed
      simp only [Option.some.injEq, Prod.mk.injEq] at changed
      rw [← changed.1, ← changed.2]⟩
  | none => p

def remove (p : PolledChannel Pointer) : PolledChannel Pointer :=
  match removed : p.slot.removeChannel p.pointer p.channel with
  | some (slot, channel) => ⟨p.pointer, channel, slot, by
      rw [p.agree, Slot.removeChannel_expected] at removed
      simp only [Option.some.injEq, Prod.mk.injEq] at removed
      rw [← removed.1, ← removed.2]⟩
  | none => p

def isWriting (p : PolledChannel Pointer) : Bool := p.channel.isWriting

/-- The descriptor is in the kernel's interest list. -/
def registered (p : PolledChannel Pointer) : Bool := p.slot.epoll.isSome

/-- The descriptor has an entry in the poller's `channels_` map. -/
def mapped (p : PolledChannel Pointer) : Bool := p.slot.channels.isSome

theorem change_channel (p : PolledChannel Pointer) (interest : Channel.Interest) :
    (p.change interest).channel =
      { p.channel with events := interest.apply p.channel.events }.updated := by
  have succeeds := Slot.updateChannel_expected p.pointer p.channel
    (interest.apply p.channel.events)
  rw [← p.agree] at succeeds
  rw [change]
  split
  · rename_i changed
    rw [Channel.change, succeeds, Option.some.injEq, Prod.mk.injEq] at changed
    exact changed.2.symm
  · rename_i exits
    rw [Channel.change, succeeds] at exits
    cases exits

theorem remove_channel (p : PolledChannel Pointer) :
    p.remove.channel = p.channel.removed := by
  have succeeds := Slot.removeChannel_expected p.pointer p.channel
  rw [← p.agree] at succeeds
  rw [remove]
  split
  · rename_i removed
    rw [succeeds, Option.some.injEq, Prod.mk.injEq] at removed
    exact removed.2.symm
  · rename_i exits
    rw [succeeds] at exits
    cases exits

/-- The channel determines its slot. -/
theorem eq_of_channel {p q : PolledChannel Pointer} (pointer : p.pointer = q.pointer)
    (channel : p.channel = q.channel) : p = q := by
  obtain ⟨c, ch, slot, agree⟩ := p
  obtain ⟨c', ch', slot', agree'⟩ := q
  subst pointer channel agree agree'
  rfl

theorem change_pointer (p : PolledChannel Pointer) (interest : Channel.Interest) :
    (p.change interest).pointer = p.pointer := by
  rw [change]
  split <;> rfl

theorem remove_pointer (p : PolledChannel Pointer) : p.remove.pointer = p.pointer := by
  rw [remove]
  split <;> rfl

/-- No `epoll_ctl` call of an agreeing channel fails, so the total `change` is the source's. -/
theorem change_slot (p : PolledChannel Pointer) (interest : Channel.Interest) :
    p.channel.change p.slot p.pointer interest =
      some ((p.change interest).slot, (p.change interest).channel) := by
  rw [(p.change interest).agree, change_pointer, change_channel, Channel.change, p.agree,
    Slot.updateChannel_expected]

/-! ### What the functions do to registration and write interest -/

theorem registered_iff (p : PolledChannel Pointer) :
    p.registered = true ↔ p.channel.index = .kAdded := by
  rw [registered, p.agree, Slot.expected]
  by_cases added : p.channel.index = .kAdded <;> simp [added]

theorem mapped_iff (p : PolledChannel Pointer) :
    p.mapped = true ↔ p.channel.index ≠ .kNew := by
  rw [mapped, p.agree, Slot.expected]
  by_cases new : p.channel.index = .kNew <;> simp [new]

@[simp] theorem tie_isWriting (p : PolledChannel Pointer) : p.tie.isWriting = p.isWriting := rfl

@[simp] theorem tie_index (p : PolledChannel Pointer) :
    p.tie.channel.index = p.channel.index := rfl

@[simp] theorem tie_tied (p : PolledChannel Pointer) : p.tie.channel.tied = true := rfl

@[simp] theorem change_tied (p : PolledChannel Pointer) (interest : Channel.Interest) :
    (p.change interest).channel.tied = p.channel.tied := by
  rw [change_channel]
  rfl

@[simp] theorem remove_tied (p : PolledChannel Pointer) :
    p.remove.channel.tied = p.channel.tied := by
  rw [remove_channel]
  rfl

@[simp] theorem change_isWriting (p : PolledChannel Pointer) (interest : Channel.Interest) :
    (p.change interest).isWriting = match interest with
      | .enableReading | .disableReading => p.isWriting
      | .enableWriting => true
      | .disableWriting | .disableAll => false := by
  simp only [isWriting, Channel.isWriting_eq, change_channel, Channel.updated]
  exact Channel.Interest.writing_apply _ _

@[simp] theorem remove_isWriting (p : PolledChannel Pointer) :
    p.remove.isWriting = p.isWriting := by
  rw [isWriting, remove_channel]
  rfl

@[simp] theorem remove_index (p : PolledChannel Pointer) :
    p.remove.channel.index = .kNew := by
  rw [remove_channel]
  rfl

/-- Asking for events registers the channel, whatever its index was. -/
@[simp] theorem enableReading_index (p : PolledChannel Pointer) :
    (p.change .enableReading).channel.index = .kAdded := by
  have some : Channel.isNoneEvent
      { p.channel with events := Channel.Interest.apply p.channel.events .enableReading } = false :=
    Channel.isNoneEvent_eq_false_of_bit (i := 0) (Channel.Interest.reading_apply _ _)
  rw [change_channel, Channel.updated, some]
  cases p.channel.index <;> rfl

@[simp] theorem enableWriting_index (p : PolledChannel Pointer) :
    (p.change .enableWriting).channel.index = .kAdded := by
  have some : Channel.isNoneEvent
      { p.channel with events := Channel.Interest.apply p.channel.events .enableWriting } = false :=
    Channel.isNoneEvent_eq_false_of_bit (i := 2) (Channel.Interest.writing_apply _ _)
  rw [change_channel, Channel.updated, some]
  cases p.channel.index <;> rfl

/-- `disableAll` unregisters a registered channel and registers any other one. -/
@[simp] theorem disableAll_index (p : PolledChannel Pointer) :
    (p.change .disableAll).channel.index =
      if p.channel.index = .kAdded then .kDeleted else .kAdded := by
  rw [change_channel, Channel.updated]
  cases p.channel.index <;> simp [Channel.isNoneEvent, Channel.Interest.apply]

end PolledChannel

end EduMuduo

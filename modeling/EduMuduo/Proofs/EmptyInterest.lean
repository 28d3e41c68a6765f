/-
Module: EduMuduo.Proofs.EmptyInterest
Layer: Proofs
Purpose: Whether a channel without interest is out of the interest list of the kernel.
  `updateChannel` deletes the descriptor on an empty mask only where it finds the channel added; a
  new or deleted channel is added with whatever mask it has, the empty one included.  So an
  operation leaves a channel without interest unregistered exactly when it is a removal, or asks for
  some event, or finds the channel registered, and `disableAll` toggles the registration.
Imports: EduMuduo.Proofs.PollerAgreement
Trusted boundary: none
Main exports: EPollPoller.Silent, EPollPoller.Operation.Settles, EPollPoller.InStep.silent_next_iff,
  unregistered_without_interest_iff
-/
import EduMuduo.Proofs.PollerAgreement

namespace EduMuduo

open Library

namespace EPollPoller

variable {Pointer : Type}

/-- With an empty mask the channel's descriptor is not in the interest list. -/
def Silent (self : EPollPoller Pointer) (c : Pointer) : Prop :=
  (self.channel c).isNoneEvent = true → self.interestList (self.fd c) = none

/-- The operation removes the channel, or leaves it an interest, or finds it registered. -/
def Operation.Settles (channel : Channel) : Operation → Prop
  | .remove => True
  | .change interest =>
      Channel.isNoneEvent { channel with events := interest.apply channel.events } = false ∨
        channel.index = .kAdded

instance (channel : Channel) (operation : Operation) :
    Decidable (operation.Settles channel) :=
  match operation with
  | .remove => inferInstanceAs (Decidable True)
  | .change _ => inferInstanceAs (Decidable (_ ∨ _))

/-- What an operation with its condition makes of the index and the mask. -/
theorem Operation.settles_iff (channel : Channel) (operation : Operation) :
    operation.Settles channel ↔
      ((operation.apply channel).isNoneEvent = true → (operation.apply channel).index ≠ .kAdded) := by
  obtain ⟨events, index, tied⟩ := channel
  cases operation with
  | remove => simp [Operation.Settles, Operation.apply, Channel.removed]
  | change interest =>
      cases index with
      | kNew | kDeleted =>
          simp [Operation.Settles, Operation.apply, Channel.updated, Channel.isNoneEvent]
      | kAdded =>
          -- `updateChannel` takes the branch of `isNoneEvent` here, whatever the mask is
          simp [Operation.Settles, Operation.apply, Channel.updated, Channel.isNoneEvent]

namespace InStep

/-- In a poller in step a channel without interest is unregistered unless its index is `kAdded`. -/
theorem silent_iff {self : EPollPoller Pointer} (inStep : self.InStep) (c : Pointer) :
    self.Silent c ↔ ((self.channel c).isNoneEvent = true → (self.channel c).index ≠ .kAdded) := by
  rw [Silent, interestList_of_agree (inStep.agree c)]
  by_cases added : (self.channel c).index = .kAdded <;> simp [added]

theorem registered_iff {self : EPollPoller Pointer} (inStep : self.InStep) (c : Pointer) :
    (self.interestList (self.fd c)).isSome = true ↔ (self.channel c).index = .kAdded := by
  rw [interestList_of_agree (inStep.agree c)]
  split <;> simp [*]

variable [DecidableEq Pointer]

theorem next_channel {self : EPollPoller Pointer} (inStep : self.InStep) (c : Pointer)
    (operation : Operation) :
    (self.next c operation).channel c = operation.apply (self.channel c) := by
  rw [next_eq (inStep.agree c), put_channel, Function.update_self]

/-- One operation leaves its channel silent exactly when it settles it. -/
theorem silent_next_iff {self : EPollPoller Pointer} (inStep : self.InStep) (c : Pointer)
    (operation : Operation) :
    (self.next c operation).Silent c ↔ operation.Settles (self.channel c) := by
  rw [(inStep.next c operation).silent_iff, inStep.next_channel, ← Operation.settles_iff]

/-- A sequence of operations keeps the poller in step. -/
theorem exec {self : EPollPoller Pointer} (inStep : self.InStep)
    (operations : List (Pointer × Operation)) :
    ((epollPoller Pointer).exec self operations).InStep := by
  induction operations generalizing self with
  | nil => exact inStep
  | cons a rest inductionHypothesis => exact inductionHypothesis (inStep.next a.1 a.2)

theorem fd_next {self : EPollPoller Pointer} (inStep : self.InStep) (c : Pointer)
    (operation : Operation) : (self.next c operation).fd = self.fd := by
  rw [next_eq (inStep.agree c)]
  rfl

/-- `disableAll` deletes a registered channel and registers any other one. -/
theorem disableAll_toggles {self : EPollPoller Pointer} (inStep : self.InStep) (c : Pointer) :
    ((self.next c (.change .disableAll)).interestList (self.fd c)).isSome =
      !(self.interestList (self.fd c)).isSome := by
  have after := (inStep.next c (.change .disableAll)).registered_iff c
  rw [inStep.next_channel, inStep.fd_next] at after
  rw [Bool.eq_iff_iff, after, Bool.not_eq_true', ← Bool.not_eq_true, inStep.registered_iff]
  cases index : (self.channel c).index <;>
    simp [Operation.apply, Channel.updated, Channel.isNoneEvent, Channel.Interest.apply, index]

/-- A second `disableAll` undoes what the first one did to the interest list. -/
theorem disableAll_not_idempotent {self : EPollPoller Pointer} (inStep : self.InStep)
    (c : Pointer) :
    ((self.next c (.change .disableAll)).next c (.change .disableAll)).interestList (self.fd c) ≠
      (self.next c (.change .disableAll)).interestList (self.fd c) := by
  intro same
  have second := (inStep.next c (.change .disableAll)).disableAll_toggles c
  rw [inStep.fd_next, same] at second
  exact Bool.eq_not_self _ |>.mp second

end InStep

end EPollPoller

variable {Pointer : Type} [DecidableEq Pointer]

/-- After every operation of a sequence its channel is out of the interest list if its mask is
empty, if and only if each operation is a removal, leaves an interest or finds its channel
registered; and `disableAll` is never idempotent on the interest list. -/
theorem unregistered_without_interest_iff {self : EPollPoller Pointer} (inStep : self.InStep)
    (operations : List (Pointer × EPollPoller.Operation)) :
    ((∀ front a rest, operations = front ++ a :: rest →
        (((epollPoller Pointer).exec self front).next a.1 a.2).Silent a.1) ↔
      ∀ front a rest, operations = front ++ a :: rest →
        a.2.Settles (((epollPoller Pointer).exec self front).channel a.1)) ∧
    ∀ c,
      ((self.next c (.change .disableAll)).next c (.change .disableAll)).interestList (self.fd c) ≠
        (self.next c (.change .disableAll)).interestList (self.fd c) := by
  constructor
  · apply forall₄_congr
    intro front a rest _
    exact (inStep.exec front).silent_next_iff a.1 a.2
  · exact inStep.disableAll_not_idempotent

/-- One channel that has just been constructed, with descriptor 5. -/
def oneChannel : EPollPoller Unit := .construct fun _ => 5

theorem oneChannel_inStep : oneChannel.InStep where
  distinct := fun _ _ _ => rfl
  agree := fun _ => rfl
  failed := rfl
  exited := rfl

/-- Enabled and disabled once a channel is out of the list; disabled once more it is back. -/
theorem unregistered_without_interest_demo :
    (((epollPoller Unit).exec oneChannel [((), .change .enableReading)]).next ()
        (.change .disableAll)).Silent () ∧
      ((oneChannel.next () (.change .disableAll)).next () (.change .disableAll)).interestList 5 ≠
        (oneChannel.next () (.change .disableAll)).interestList 5 := by
  have each := unregistered_without_interest_iff oneChannel_inStep
    [((), .change .enableReading), ((), .change .disableAll)]
  constructor
  · apply each.1.mpr _ [((), .change .enableReading)] ((), .change .disableAll) [] rfl
    intro front a rest split
    match front with
    | [] => cases split; decide
    | [_] => cases split; decide
    | _ :: _ :: _ => simp at split
  · exact each.2 ()

/-- A channel that is enabled once and disabled twice ends with an empty mask in the interest
list. -/
theorem registered_without_interest :
    ¬ ∀ (operations front rest : List (Unit × EPollPoller.Operation))
        (a : Unit × EPollPoller.Operation), operations = front ++ a :: rest →
          (((epollPoller Unit).exec oneChannel front).next a.1 a.2).Silent a.1 := by
  intro always
  have settled := always
    [((), .change .enableReading), ((), .change .disableAll), ((), .change .disableAll)]
    [((), .change .enableReading), ((), .change .disableAll)] [] ((), .change .disableAll) rfl
  rw [(oneChannel_inStep.exec _).silent_next_iff] at settled
  revert settled
  decide

end EduMuduo

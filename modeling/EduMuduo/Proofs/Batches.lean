/-
Module: EduMuduo.Proofs.Batches
Layer: Proofs
Purpose: The iterations of a loop.  Only the steps of `loop()` itself change its phase and the events
  that it still has to handle; calls, functors and `quit()` leave both alone.  So nothing is on the
  stack while the loop polls, and no event is left when it goes through its functors.
Imports: EduMuduo.Proofs.StackFlow
Trusted boundary: none (fully proved)
Main exports: World.turns?, Loop.Steady, World.part_next, World.mem_active_next, World.PhaseChange,
  World.next_phase, Loop.InTurn, inTurn
-/
import EduMuduo.Proofs.StackFlow

namespace EduMuduo

open Library

/-- The part of a loop says nothing of its stack, its functors and `quit_`. -/
def Loop.Steady {Part : Type*} (part : Loop → Part) : Prop :=
  ∀ loop stack functors quit asked,
    part { loop with stack := stack, functors := functors, quit := quit, asked := asked } =
      part loop

theorem Loop.steady_phase : Loop.Steady Loop.phase := fun _ _ _ _ _ => rfl

theorem Loop.steady_active : Loop.Steady Loop.activeChannels := fun _ _ _ _ _ => rfl

theorem Loop.steady_destroyed : Loop.Steady Loop.destroyed := fun _ _ _ _ _ => rfl

namespace World

/-- The loop that an action takes one step further in `loop()`. -/
def turns? : Action → Option LoopId
  | .enterLoop l | .poll l _ | .handleEvent l _ | .doPendingFunctors l | .endBatch l
  | .destroyLoop l => some l
  | _ => none

/-! ### Steady parts -/

section Steady

variable {Part : Type*} {part : Loop → Part} (steady : Loop.Steady part)

include steady

theorem part_queueInLoop (w : World) (l l' : LoopId) (tasks : List Task) :
    part ((w.queueInLoop l' tasks).loops l) = part (w.loops l) :=
  setLoop_part_same part _ _ _ (steady _ _ _ _ _)

theorem part_runInLoop (w : World) (l l' ioLoop : LoopId) (task : Task) :
    part ((w.runInLoop l' ioLoop task).loops l) = part (w.loops l) := by
  rw [runInLoop]
  split
  · exact setLoop_part_same part _ _ _ (steady _ _ _ _ _)
  · exact part_queueInLoop steady _ _ _ _

theorem part_handleEvent (w : World) (l l' : LoopId) (named : Bool) (active : Active) :
    part ((w.handleEvent l' named active).loops l) = part (w.loops l) := by
  cases active with
  | channel c revents => exact setLoop_part_same part _ _ _ (steady _ _ _ _ _)
  | acceptor =>
      rw [handleEvent]
      split
      · rfl
      · cases named with
        | false => rfl
        | true =>
            simp only [newConnection, if_true]
            rw [part_runInLoop steady]
            rfl

theorem part_fetch {loop after : Loop} {job : Job} (fetched : loop.fetch = some (job, after)) :
    part after = part loop := by
  cases Loop.fetched fetched with
  | called _ rest top => exact steady _ _ _ _ _
  | functor task rest bottom draining next => exact steady _ _ _ _ _

/-- Whatever is not a step of `loop()` on the loop itself leaves its steady parts alone. -/
theorem part_next {w : World} {a : Action} (guard : w.Enabled a) {l : LoopId}
    (other : turns? a ≠ some l) : part ((w.next a).loops l) = part (w.loops l) := by
  have elsewhere : ∀ {l' : LoopId} (loop : Loop), turns? a = some l' →
      part ((w.setLoop l' loop).loops l) = part (w.loops l) := by
    intro l' loop turns
    rw [setLoop_part part, if_neg]
    rintro rfl
    exact other turns
  cases a with
  | enterLoop l' | poll l' active | doPendingFunctors l' | endBatch l' | destroyLoop l' =>
      exact elsewhere _ rfl
  | handleEvent l' named =>
      rw [next]
      split
      · rfl
      · rw [part_handleEvent steady]
        exact elsewhere _ rfl
  | run l' kernel =>
      obtain ⟨job, loop, fetched, _⟩ := enabled_run guard
      simp only [next, fetched]
      rw [commit, part_queueInLoop steady]
      refine (setLoop_part_same part _ _ _ ?_).trans rfl
      exact (steady _ _ _ _ _).trans (part_fetch steady fetched)
  | userReturn l' | quit l' | destroyServer =>
      exact setLoop_part_same part _ _ _ (steady _ _ _ _ _)
  | userTake l' t c =>
      exact setLoop_part_same part _ _ _ ((steady _ _ _ _ _).trans (steady _ _ _ _ _))
  | submit l' =>
      rw [next]
      split
      · rw [part_queueInLoop steady]
        exact setLoop_part_same part _ _ _ (steady _ _ _ _ _)
      · rfl
  | queueInLoop t =>
      rw [next]
      split
      · exact part_queueInLoop steady _ _ _ _
      · rfl
  | userSend l' c data | userShutdown l' c =>
      simp only [next]
      split
      · exact setLoop_part_same part _ _ _ (steady _ _ _ _ _)
      · rfl
  | destroyConnection c => exact part_runInLoop steady _ _ _ _ _
  | destroyMember =>
      rw [next, destroyMember]
      split
      · exact setLoop_part_same part _ _ _ ((steady _ _ _ _ _).trans (steady _ _ _ _ _))
      · rw [setLoop_part_same part _ _ _ (steady _ _ _ _ _)]
        exact setLoop_part_same part _ _ _ (steady _ _ _ _ _)
      · exact setLoop_part_same part _ _ _ (steady _ _ _ _ _)
      · exact setLoop_part_same part _ _ _ (steady _ _ _ _ _)
      · rfl
  | send t c data | shutdown t c =>
      simp only [next]
      split <;> rfl
  | userSetHighWaterMarkCallback l' c mark | userRetrieve l' c len | userGive l' t c
  | copy t other c | drop t c | queueUser t c => rfl

end Steady

/-! ### The events that are left -/

/-- An event that is to be handled was there before the step, or it has been polled. -/
theorem mem_active_next {w : World} {a : Action} (guard : w.Enabled a) {l : LoopId} {x : Active}
    (member : x ∈ ((w.next a).loops l).activeChannels) :
    x ∈ (w.loops l).activeChannels ∨ ∃ active, a = .poll l active ∧ x ∈ active := by
  by_cases other : turns? a = some l
  · have here : ∀ (loop : Loop), ((w.setLoop l loop).loops l).activeChannels =
        loop.activeChannels := fun loop => by
      rw [setLoop_part Loop.activeChannels, if_pos rfl]
    cases a with
    | poll l' active =>
        cases other
        rw [next, here] at member
        exact .inr ⟨active, rfl, member⟩
    | handleEvent l' named =>
        cases other
        left
        rw [next] at member
        split at member
        · exact member
        · rename_i first rest split
          rw [part_handleEvent Loop.steady_active, here] at member
          rw [split]
          exact List.mem_cons_of_mem _ member
    | enterLoop l' | doPendingFunctors l' | endBatch l' | destroyLoop l' =>
        cases other
        rw [next, here] at member
        exact .inl member
    | _ => cases other
  · rw [part_next Loop.steady_active guard other] at member
    exact .inl member

/-! ### The phase -/

/-- Everything that action `a` can make of the phase of loop `l`. -/
inductive PhaseChange (w : World) (a : Action) (l : LoopId) : Phase → Prop where
  | entered (running : a = .enterLoop l) : PhaseChange w a l .draining
  | same (unpolled : ∀ active, a ≠ .poll l active) : PhaseChange w a l (w.loops l).phase
  | polled (active : List Active) (running : a = .poll l active) : PhaseChange w a l .handling
  | drains (running : a = .doPendingFunctors l) : PhaseChange w a l .draining
  | ended (running : a = .endBatch l) :
      PhaseChange w a l (if (w.loops l).quit then .stopped else .polling)

theorem next_phase {w : World} {a : Action} (guard : w.Enabled a) (l : LoopId) :
    PhaseChange w a l ((w.next a).loops l).phase := by
  by_cases other : turns? a = some l
  · cases a with
    | enterLoop l' =>
        cases other
        rw [next, setLoop_part Loop.phase, if_pos rfl]
        exact .entered rfl
    | poll l' active =>
        cases other
        rw [next, setLoop_part Loop.phase, if_pos rfl]
        exact .polled active rfl
    | handleEvent l' named =>
        cases other
        have kept : ((w.next (.handleEvent l named)).loops l).phase = (w.loops l).phase := by
          rw [next]
          split
          · rfl
          · rw [part_handleEvent Loop.steady_phase]
            exact setLoop_part_same Loop.phase _ _ _ rfl
        rw [kept]
        exact .same fun _ polls => by cases polls
    | doPendingFunctors l' =>
        cases other
        rw [next, setLoop_part Loop.phase, if_pos rfl]
        exact .drains rfl
    | endBatch l' =>
        cases other
        rw [next, setLoop_part Loop.phase, if_pos rfl]
        exact .ended rfl
    | destroyLoop l' =>
        cases other
        rw [next, setLoop_part_same Loop.phase _ _ _ (by rfl)]
        exact .same fun _ polls => by cases polls
    | _ => cases other
  · rw [part_next Loop.steady_phase guard other]
    refine .same ?_
    rintro active rfl
    exact other rfl

/-- Only the end of `threadFunc` destroys a loop. -/
theorem next_destroyed {w : World} {a : Action} (guard : w.Enabled a) (l : LoopId) :
    ((w.next a).loops l).destroyed = (w.loops l).destroyed ∨
      a = .destroyLoop l ∧ ((w.next a).loops l).destroyed = true := by
  by_cases other : turns? a = some l
  · cases a with
    | enterLoop l' | poll l' active | doPendingFunctors l' | endBatch l' =>
        exact .inl (setLoop_part_same Loop.destroyed _ _ _ rfl)
    | handleEvent l' named =>
        left
        rw [next]
        split
        · rfl
        · rw [part_handleEvent Loop.steady_destroyed]
          exact setLoop_part_same Loop.destroyed _ _ _ rfl
    | destroyLoop l' =>
        cases other
        rw [next, setLoop_part Loop.destroyed, if_pos rfl]
        exact .inr ⟨rfl, rfl⟩
    | _ => cases other
  · exact .inl (part_next Loop.steady_destroyed guard other)

/-! ### The turns of a loop -/

/-- No action reaches the stack of a loop that polls. -/
theorem next_stack_polling {w : World} {a : Action} (guard : w.Enabled a) {l : LoopId}
    (polling : (w.loops l).phase = .polling) (empty : (w.loops l).stack = []) :
    ((w.next a).loops l).stack = [] := by
  have change := next_stack guard l
  generalize ((w.next a).loops l).stack = stack at change
  have uncalled : ∀ {c}, c ∉ (w.loops l).copies := by
    intro c atHand
    obtain ⟨held, rest, top, _⟩ := copies_eq atHand
    rw [empty] at top
    cases top
  cases change with
  | same => exact empty
  | dispatched named c revents running =>
      subst running
      have handling : (w.loops l).phase = .handling := guard.2.1
      rw [polling] at handling
      cases handling
  | ran kernel job loop running fetched =>
      cases Loop.fetched fetched with
      | called _ rest top =>
          rw [empty] at top
          cases top
      | functor task rest bottom draining =>
          rw [polling] at draining
          cases draining
  | called task idle pushed =>
      cases pushed with
      | connectEstablished accepting =>
          subst accepting
          have handling : (w.loops l).phase = .handling := guard.2.1
          rw [polling] at handling
          cases handling
      | removeConnectionInLoop kernel c running => exact absurd running (idle kernel)
      | sendInLoop c data running =>
          subst running
          exact absurd guard.2 uncalled
      | shutdownInLoop c running =>
          subst running
          exact absurd guard.2 uncalled
      | connectDestroyed c running base =>
          subst running base
          have top := guard.1
          rw [empty] at top
          cases top
  | submitted task rest running top | returned held rest running top
  | took t c held rest running top | member frame frames rest running top =>
      rw [empty] at top
      cases top
  | destroying running base =>
      subst running base
      rcases guard.2 with inUser | ⟨awake, _⟩
      · obtain ⟨held, rest, top⟩ := inUserCode_eq inUser
        rw [empty] at top
        cases top
      · exact absurd polling awake

end World

/-- Nothing is on the stack while the loop polls, and events are left only while it handles them. -/
structure Loop.InTurn (loop : Loop) : Prop where
  polling : loop.phase = .polling → loop.stack = []
  handled : loop.phase ≠ .handling → loop.activeChannels = []

namespace World

theorem inTurn_next {w : World} {a : Action} (guard : w.Enabled a) {l : LoopId}
    (inTurn : (w.loops l).InTurn) : ((w.next a).loops l).InTurn := by
  have change := next_phase guard l
  have unhandled : (w.loops l).activeChannels = [] → (∀ active, a ≠ .poll l active) →
      ((w.next a).loops l).activeChannels = [] := by
    intro none unpolled
    apply List.eq_nil_iff_forall_not_mem.mpr
    intro x member
    rcases mem_active_next guard member with old | ⟨active, polled, _⟩
    · rw [none] at old
      cases old
    · exact unpolled active polled
  generalize phased : ((w.next a).loops l).phase = phase at change
  cases change with
  | entered running =>
      subst running
      have entering : (w.loops l).phase = .entering := guard.2.1
      constructor
      · intro polling
        rw [phased] at polling
        cases polling
      · intro _
        exact unhandled (inTurn.handled (by rw [entering]; decide)) fun _ polls => by cases polls
  | same unpolled =>
      constructor
      · intro polling
        have before := phased ▸ polling
        exact next_stack_polling guard before (inTurn.polling before)
      · intro elsewhere
        exact unhandled (inTurn.handled (phased ▸ elsewhere)) unpolled
  | polled active running =>
      constructor
      · intro polling
        rw [phased] at polling
        cases polling
      · intro elsewhere
        exact absurd phased elsewhere
  | drains running =>
      subst running
      have none : (w.loops l).activeChannels = [] := guard.2.2.2
      constructor
      · intro polling
        rw [phased] at polling
        cases polling
      · intro _
        exact unhandled none fun _ polls => by cases polls
  | ended running =>
      subst running
      have draining : (w.loops l).phase = .draining := guard.2.1
      have empty : (w.loops l).stack = [] := guard.2.2.1
      have none := inTurn.handled (by rw [draining]; decide)
      constructor
      · intro _
        rw [next, setLoop_part Loop.stack, if_pos rfl]
        exact empty
      · intro _
        exact unhandled none fun _ polls => by cases polls

end World

/-- Every loop takes its turns in order. -/
theorem inTurn {w : World} (reachable : server.Reachable w) (l : LoopId) :
    (w.loops l).InTurn := by
  refine reachable.invariant (I := fun w => ∀ l, (w.loops l).InTurn) ?_ ?_ l
  · rintro w ⟨name, ipPort, callbacks, ioLoops, users, rfl⟩ l
    exact ⟨fun _ => rfl, fun _ => rfl⟩
  · intro w a _ before guard l
    exact World.inTurn_next guard (before l)

end EduMuduo

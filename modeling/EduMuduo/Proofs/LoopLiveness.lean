/-
Module: EduMuduo.Proofs.LoopLiveness
Layer: Proofs
Purpose: What an event loop comes to when `epoll_wait` has no timeout to help it.  The loop thread
  goes through the phases of `loop()` in turn; it waits in `poll` only for a positive counter, which
  some other thread still owes it.  So in a fair run every functor that is queued is called, and a
  loop that is told to quit returns.
Imports: EduMuduo.Library.Fairness, EduMuduo.Proofs.QueuedBeforeQuit, EduMuduo.Proofs.Wakeup,
  Mathlib.Order.Lattice.Nat, Mathlib.Data.Prod.Lex
Trusted boundary: none
Main exports: EventLoop.work, EventLoop.next_phase, FairLoop, queued_functor_runs,
  quit_loop_returns
-/
import EduMuduo.Library.Fairness
import EduMuduo.Proofs.QueuedBeforeQuit
import EduMuduo.Proofs.Wakeup
import Mathlib.Order.Lattice.Nat
import Mathlib.Data.Prod.Lex

namespace EduMuduo

open Library

/-! ### Who has to move -/

/-- The loop thread in library code, the loop thread in code of the user, and the other threads. -/
inductive LoopProcess where
  | library
  | userCode
  | thread (thread : ThreadId)
deriving DecidableEq

namespace LoopPoint

/-- A handler, a functor or a destructor of functors runs. -/
def InUserCode (point : LoopPoint) : Prop :=
  point = .inHandler ∨ point = .inFunctor ∨ point = .releasing

instance (point : LoopPoint) : Decidable point.InUserCode :=
  inferInstanceAs (Decidable (_ ∨ _ ∨ _))

/-- A handler belongs to the handling of events and a functor to the draining of the batch. -/
def phase : LoopPoint → LoopPoint
  | .inHandler => .handling
  | .inFunctor => .draining
  | point => point

end LoopPoint

/-- The actions by which a process gets on. -/
def LoopAction.isOf {Functor : Type} (process : LoopProcess) : LoopAction Functor → Prop
  | .testQuit | .poll _ | .handleEvent | .doPendingFunctors | .swap | .call | .clearFlag =>
      process = .library
  | .handlerReturn | .functorReturn | .destroyFunctors => process = .userCode
  | .wakeup thread => process = .thread thread
  | .loop | .selfPush _ | .selfWakeup | .selfQuit | .push _ _ | .setQuit _ => False

/-- The actions that lead from one phase to the next. -/
def LoopAction.turns {Functor : Type} : LoopAction Functor → Bool
  | .testQuit | .poll _ | .doPendingFunctors | .swap | .clearFlag | .destroyFunctors => true
  | _ => false

namespace EventLoop

variable {Functor : Type}

/-- The first of the threads that owe the loop a `wakeup()`. -/
noncomputable def owing (s : EventLoop Functor) : ThreadId :=
  sInf {thread | s.threads thread ≠ .idle}

/-- What is left to do in the present phase. -/
noncomputable def work (s : EventLoop Functor) : Nat :=
  match s.point with
  | .polling => if s.wakeupFd = 0 then s.owing + 1 else 0
  | .handling => 2 * s.activeChannels.length
  | .inHandler => 2 * s.activeChannels.length + 1
  | .draining => 2 * s.rest.length
  | .inFunctor => 2 * s.rest.length + 1
  | .outside | .test | .swapping | .releasing => 0

/-- Who gets the loop on. -/
noncomputable def helper (s : EventLoop Functor) : LoopProcess :=
  if s.point.InUserCode then .userCode
  else if s.point = .polling ∧ s.wakeupFd = 0 then .thread s.owing
  else .library

/-- The loop does not wait for nothing. -/
def Awaited (s : EventLoop Functor) : Prop :=
  s.point = .polling → s.wakeupFd = 0 → ∃ thread, s.threads thread ≠ .idle

theorem Awaited.owing {s : EventLoop Functor} (awaited : s.Awaited) (polling : s.point = .polling)
    (empty : s.wakeupFd = 0) : s.threads s.owing ≠ .idle :=
  Nat.sInf_mem (awaited polling empty)

/-- What a step within a phase does to the measure. -/
structure Advances (s t : EventLoop Functor) (action : LoopAction Functor) : Prop where
  phase : t.point.phase = s.point.phase
  batch : t.executed.length + t.rest.length = s.executed.length + s.rest.length
  closer : t.work < s.work ∨ t.work = s.work ∧ t.helper = s.helper ∧ ¬ action.isOf s.helper

/-- A step that moves neither the loop thread nor what it looks at. -/
theorem Advances.of_same {s t : EventLoop Functor} {action : LoopAction Functor}
    (point : t.point = s.point) (executed : t.executed = s.executed) (rest : t.rest = s.rest)
    (active : t.activeChannels = s.activeChannels)
    (waiting : s.point = .polling →
      t.wakeupFd = s.wakeupFd ∧ (s.wakeupFd = 0 → t.owing = s.owing) ∨
        s.wakeupFd ≠ 0 ∧ t.wakeupFd ≠ 0)
    (other : ¬ action.isOf s.helper) : s.Advances t action := by
  refine ⟨by rw [point], by rw [executed, rest], .inr ⟨?_, ?_, other⟩⟩
  · rw [work, work, point, rest, active]
    split
    · rename_i polling
      rcases waiting polling with ⟨counter, owes⟩ | ⟨before, after⟩
      · rw [counter]
        split
        · rename_i empty
          rw [owes empty]
        · rfl
      · rw [if_neg before, if_neg after]
    all_goals rfl
  · rw [helper, helper, point]
    split
    · rfl
    · by_cases polling : s.point = .polling
      · rcases waiting polling with ⟨counter, owes⟩ | ⟨before, after⟩
        · rw [counter]
          split
          · rename_i both
            rw [owes both.2]
          · rfl
        · rw [if_neg fun both => after both.2, if_neg fun both => before both.2]
      · rw [if_neg fun both => polling both.1, if_neg fun both => polling both.1]

/-- A thread that comes to owe a wakeup can only become the first one. -/
theorem Advances.of_thread {s t : EventLoop Functor} {action : LoopAction Functor}
    (awaited : s.Awaited) {thread : ThreadId} {owes : ThreadPoint} (busy : owes ≠ .idle)
    (threads : t.threads = fun other => if other = thread then owes else s.threads other)
    (point : t.point = s.point) (executed : t.executed = s.executed) (rest : t.rest = s.rest)
    (active : t.activeChannels = s.activeChannels) (counter : t.wakeupFd = s.wakeupFd)
    (other : ¬ action.isOf s.helper) : s.Advances t action := by
  by_cases waits : s.point = .polling ∧ s.wakeupFd = 0
  · have owing := awaited.owing waits.1 waits.2
    have still : t.threads s.owing ≠ .idle := by
      rw [threads]
      dsimp only
      split
      · exact busy
      · exact owing
    have first : t.owing ≤ s.owing := Nat.sInf_le still
    rcases Nat.eq_or_lt_of_le first with same | less
    · exact .of_same point executed rest active (fun _ => .inl ⟨counter, fun _ => same⟩) other
    · refine ⟨by rw [point], by rw [executed, rest], .inl ?_⟩
      simp only [work, point, waits.1, counter, if_pos waits.2]
      exact Nat.succ_lt_succ less
  · refine .of_same point executed rest active (fun polling => .inl ⟨counter, ?_⟩) other
    exact fun empty => absurd ⟨polling, empty⟩ waits

/-- A wakeup is what the loop waits for. -/
theorem Advances.of_wakeup (s : EventLoop Functor) (thread : ThreadId) :
    s.Advances (s.next (.wakeup thread)) (.wakeup thread) := by
  have point : (s.next (.wakeup thread)).point = s.point := rfl
  have counter : (s.next (.wakeup thread)).wakeupFd ≠ 0 := Nat.succ_ne_zero _
  by_cases waits : s.point = .polling ∧ s.wakeupFd = 0
  · refine ⟨rfl, rfl, .inl ?_⟩
    simp only [work, point, waits.1, if_pos waits.2, if_neg counter]
    exact Nat.succ_pos _
  · refine .of_same point rfl rfl rfl (fun polling => .inr ⟨?_, counter⟩) ?_
    · exact fun empty => waits ⟨polling, empty⟩
    · -- the helper is the loop thread
      rw [helper]
      split
      · exact nofun
      · exact nofun

/-- In code of the user only its return brings the loop on. -/
theorem Advances.of_userCode {s : EventLoop Functor} {action : LoopAction Functor}
    (inside : s.point.InUserCode) (point : (s.next action).point = s.point)
    (executed : (s.next action).executed = s.executed) (rest : (s.next action).rest = s.rest)
    (active : (s.next action).activeChannels = s.activeChannels)
    (other : ¬ action.isOf .userCode) : s.Advances (s.next action) action := by
  have busy : s.helper = .userCode := if_pos inside
  refine .of_same point executed rest active (fun polling => ?_) (busy ▸ other)
  rw [polling] at inside
  exact absurd inside (by decide)

/-- The call of a functor takes it from the batch. -/
theorem rest_call {s : EventLoop Functor} (more : s.called < s.functors.length) :
    (s.next .call).executed.length = s.executed.length + 1 ∧
      (s.next .call).rest.length + 1 = s.rest.length := by
  constructor
  · simp [next]
    omega
  · simp [next, rest]
    omega

/-- The step lemma of the measure: a step of a running loop leads to the next phase, or advances
within the phase. -/
theorem next_phase {s : EventLoop Functor} (running : s.point ≠ .outside) (awaited : s.Awaited)
    (invariant : s.WakeupInvariant) {action : LoopAction Functor} (guard : s.Enabled action)
    (inside : SelfCallsInside s action) :
    action.turns = true ∨ s.Advances (s.next action) action := by
  cases action with
  | testQuit | poll _ | doPendingFunctors | swap | clearFlag | destroyFunctors => exact .inl rfl
  | loop => exact absurd guard.1 running
  | handleEvent =>
      right
      obtain ⟨here, some⟩ := guard
      rw [next]
      split
      · rename_i none
        exact absurd none some
      · rename_i later first
        refine ⟨rfl, rfl, .inl ?_⟩
        simp only [work, here, first, List.length_cons]
        omega
      · rename_i fd later first
        refine ⟨by rw [here]; rfl, rfl, .inl ?_⟩
        simp only [work, here, first, List.length_cons]
        omega
  | handlerReturn =>
      refine .inr ⟨by rw [guard.1]; rfl, rfl, .inl ?_⟩
      simp only [work, next, guard.1]
      omega
  | call =>
      obtain ⟨called, left⟩ := rest_call guard.2
      refine .inr ⟨by rw [guard.1]; rfl, by omega, .inl ?_⟩
      have after : (s.next .call).work = 2 * (s.next .call).rest.length + 1 := rfl
      rw [after, work, guard.1]
      dsimp only
      omega
  | functorReturn =>
      refine .inr ⟨by rw [guard.1]; rfl, rfl, .inl ?_⟩
      have after : (s.next .functorReturn).work = 2 * s.rest.length := rfl
      rw [after, work, guard.1]
      exact Nat.lt_succ_self _
  | selfPush functor =>
      have user : s.point.InUserCode := inside.imp_right .inl
      exact .inr (.of_userCode user rfl rfl rfl rfl not_false)
  | selfWakeup =>
      have user : s.point.InUserCode := (invariant.self guard).imp_right .inl
      exact .inr (.of_userCode user rfl rfl rfl rfl not_false)
  | selfQuit =>
      have user : s.point.InUserCode := guard.1.resolve_left running
      exact .inr (.of_userCode user rfl rfl rfl rfl not_false)
  | push thread functor =>
      exact .inr (.of_thread awaited (by decide : ThreadPoint.queued ≠ .idle) rfl rfl rfl rfl rfl
        rfl not_false)
  | setQuit thread =>
      exact .inr (.of_thread awaited (by decide : ThreadPoint.quitting ≠ .idle) rfl rfl rfl rfl
        rfl rfl not_false)
  | wakeup thread => exact .inr (.of_wakeup s thread)

end EventLoop

/-! ### Fair runs -/

/-- `epoll_wait` is not relied on to return before the counter is positive. -/
def WaitsForCounter {Functor : Type} (s : EventLoop Functor) : LoopAction Functor → Prop
  | .poll _ => 0 < s.wakeupFd
  | _ => True

/-- An endless run of a loop whose own thread queues from handlers and functors only
(`SelfCallsInside`).  Library code gets on, where `poll` need only return for a positive counter;
who has pushed a functor or set the flag comes to its `wakeup()`; and handlers, functors and
destructors return. -/
structure FairLoop {Functor : Type} (schedule : Nat → LoopAction Functor) : Prop where
  admitted : ((eventLoop Functor).restrict SelfCallsInside).AdmitsEndless .construct schedule
  library : ((eventLoop Functor).restrict WaitsForCounter).Fair .construct schedule
    (LoopAction.isOf .library)
  wakes : ∀ thread, (eventLoop Functor).Fair .construct schedule
    (LoopAction.isOf (.thread thread))
  returns : ∀ n, ∃ m, n ≤ m ∧
    ¬ ((eventLoop Functor).stateAt .construct schedule m).point.InUserCode

theorem wakeupInvariant {Functor : Type} {s : EventLoop Functor}
    (reachable : ((eventLoop Functor).restrict SelfCallsInside).Reachable s) :
    s.WakeupInvariant := by
  refine reachable.invariant (I := EventLoop.WakeupInvariant) ?_ ?_
  · rintro s rfl
    exact ⟨by simp [EventLoop.construct, LoopPoint.Flagged], nofun,
      fun _ some => absurd rfl some⟩
  · intro s action reachable invariant guard
    exact invariant.next (EventLoop.vectorInvariant reachable.of_restrict) guard.1 guard.2

/-- Library code of a running loop has a step to take, in `poll` if the counter is positive. -/
theorem EventLoop.library_ready {Functor : Type} {s : EventLoop Functor}
    (running : s.point ≠ .outside) (helps : s.helper = .library) :
    ∃ action, LoopAction.isOf .library action ∧
      ((eventLoop Functor).restrict WaitsForCounter).enabled s action := by
  rw [helper] at helps
  split at helps
  · cases helps
  · rename_i library
    split at helps
    · cases helps
    · rename_i counted
      cases here : s.point with
      | outside => exact absurd here running
      | test => exact ⟨.testQuit, rfl, here, trivial⟩
      | polling =>
          have positive : 0 < s.wakeupFd := Nat.pos_of_ne_zero fun empty => counted ⟨here, empty⟩
          exact ⟨.poll [], rfl, ⟨here, nofun⟩, positive⟩
      | handling =>
          by_cases none : s.activeChannels = []
          · exact ⟨.doPendingFunctors, rfl, ⟨here, none⟩, trivial⟩
          · exact ⟨.handleEvent, rfl, ⟨here, none⟩, trivial⟩
      | swapping => exact ⟨.swap, rfl, here, trivial⟩
      | draining =>
          rcases Nat.lt_or_ge s.called s.functors.length with more | done
          · exact ⟨.call, rfl, ⟨here, more⟩, trivial⟩
          · exact ⟨.clearFlag, rfl, ⟨here, done⟩, trivial⟩
      | inHandler | inFunctor | releasing =>
          rw [here] at library
          exact absurd (by decide) library

section Runs

variable {Functor : Type} {schedule : Nat → LoopAction Functor}

/-- A running loop comes to a goal if each new phase is closer to it. -/
theorem FairLoop.eventually (run : FairLoop schedule) (stage : EventLoop Functor → Nat)
    (I goal : EventLoop Functor → Prop)
    (awaited : ∀ s, ((eventLoop Functor).restrict SelfCallsInside).Reachable s → I s → ¬ goal s →
      s.point ≠ .outside ∧ s.Awaited)
    (keeps : ∀ s action, ((eventLoop Functor).restrict SelfCallsInside).Reachable s → I s →
      ¬ goal s → s.Enabled action → goal (s.next action) ∨ I (s.next action))
    (turns : ∀ s action, ((eventLoop Functor).restrict SelfCallsInside).Reachable s → I s →
      ¬ goal s → s.Enabled action → action.turns = true →
        goal (s.next action) ∨ stage (s.next action) < stage s)
    (within : ∀ s action, I s → ¬ goal s → s.Advances (s.next action) action →
      stage (s.next action) = stage s)
    {n : Nat} (start : I ((eventLoop Functor).stateAt .construct schedule n)) :
    ∃ m, n ≤ m ∧ goal ((eventLoop Functor).stateAt .construct schedule m) := by
  have reachable : ∀ m, ((eventLoop Functor).restrict SelfCallsInside).Reachable
      ((eventLoop Functor).stateAt .construct schedule m) := by
    intro m
    rw [← Machine.restrict_stateAt SelfCallsInside]
    exact (Machine.Reachable.start rfl).stateAt run.admitted m
  have guard : ∀ m, EventLoop.Enabled ((eventLoop Functor).stateAt .construct schedule m)
      (schedule m) ∧ SelfCallsInside ((eventLoop Functor).stateAt .construct schedule m)
        (schedule m) := by
    intro m
    have guard := run.admitted m
    rw [Machine.restrict_stateAt] at guard
    exact guard
  refine Machine.eventually_of_response (M := eventLoop Functor) wellFounded_lt
    (fun process action => action.isOf process) EventLoop.helper
    (fun s => toLex (stage s, s.work)) (fun s => goal s ∨ I s) goal ?_ ?_ (.inr start)
  · intro m _ kept short
    have kept := kept.resolve_left short
    obtain ⟨running, awaits⟩ := awaited _ (reachable m) kept short
    obtain ⟨enabled, inside⟩ := guard m
    refine ⟨keeps _ _ (reachable m) kept short enabled, ?_⟩
    rcases EventLoop.next_phase running awaits (wakeupInvariant (reachable m)) enabled inside with
      turn | advances
    · rcases turns _ _ (reachable m) kept short enabled turn with there | less
      · exact .reached there
      · exact .closer (Prod.Lex.toLex_lt_toLex.mpr (.inl less))
    · have same := within _ _ kept short advances
      rcases advances.closer with less | ⟨work, helper, other⟩
      · exact .closer (Prod.Lex.toLex_lt_toLex.mpr (.inr ⟨same, less⟩))
      · refine .waits ?_ helper other
        change toLex (stage (EventLoop.next _ _), EventLoop.work (EventLoop.next _ _)) = _
        rw [same, work]
  · intro process k stays
    cases process with
    | library =>
        apply run.library k
        intro m later
        obtain ⟨kept, short, helps⟩ := stays m later
        obtain ⟨running, _⟩ := awaited _ (reachable m) (kept.resolve_left short) short
        rw [Machine.restrict_stateAt]
        exact EventLoop.library_ready running helps
    | userCode =>
        obtain ⟨m, later, outside⟩ := run.returns k
        obtain ⟨_, _, helps⟩ := stays m later
        rw [EventLoop.helper, if_neg outside] at helps
        split at helps <;> cases helps
    | thread thread =>
        apply run.wakes thread k
        intro m later
        obtain ⟨kept, short, helps⟩ := stays m later
        obtain ⟨_, awaits⟩ := awaited _ (reachable m) (kept.resolve_left short) short
        refine ⟨.wakeup thread, rfl, ?_⟩
        rw [EventLoop.helper] at helps
        split at helps
        · cases helps
        · split at helps
          · rename_i waits
            cases helps
            exact awaits.owing waits.1 waits.2
          · cases helps

end Runs

/-! ### A loop that is told to quit -/

namespace EventLoop

variable {Functor : Type}

/-- Told to quit while it polls, the loop still gets the wakeup of who told it. -/
theorem quit_awaited {s : EventLoop Functor}
    (reachable : ((eventLoop Functor).restrict SelfCallsInside).Reachable s)
    (quit : s.quit = true) : s.Awaited := by
  revert quit
  refine reachable.invariant (I := fun s => s.quit = true → s.Awaited) ?_ ?_
  · rintro s rfl quit
    cases quit
  · intro s action before awaited guard quit
    have invariant := wakeupInvariant before
    obtain ⟨guard, inside⟩ := guard
    intro polling empty
    change (s.next action).quit = true at quit
    change (s.next action).point = .polling at polling
    change (s.next action).wakeupFd = 0 at empty
    cases action with
    | loop => cases polling
    | testQuit =>
        rw [next] at quit polling
        split at polling
        · cases polling
        · rename_i open'
          rw [if_neg open'] at quit
          exact absurd quit open'
    | poll active | handlerReturn | doPendingFunctors | swap | call | functorReturn | clearFlag
    | destroyFunctors => cases polling
    | handleEvent =>
        rw [next] at polling
        split at polling
        · cases guard.1.symm.trans polling
        · cases guard.1.symm.trans polling
        · cases polling
    | selfPush functor =>
        have here : s.point = .polling := polling
        rcases inside with user | user <;> cases here.symm.trans user
    | selfWakeup =>
        have here : s.point = .polling := polling
        rcases invariant.self guard with user | user <;> cases here.symm.trans user
    | selfQuit =>
        have here : s.point = .polling := polling
        rcases guard.1 with user | user | user | user <;> cases here.symm.trans user
    | push thread functor => exact ⟨thread, by simp [eventLoop, next, setThread]⟩
    | setQuit thread => exact ⟨thread, by simp [eventLoop, next, setThread]⟩
    | wakeup thread => cases empty

end EventLoop

/-- How many phases are ahead of the test of `quit_`. -/
def LoopPoint.aheadOfTest : LoopPoint → Nat
  | .test => 0
  | .releasing => 1
  | .draining | .inFunctor => 2
  | .swapping => 3
  | .handling | .inHandler => 4
  | .polling => 5
  | .outside => 6

/-- A loop that is told to quit returns from `loop()`. -/
theorem quit_loop_returns {Functor : Type} {schedule : Nat → LoopAction Functor}
    (run : FairLoop schedule) {n : Nat}
    (quit : ((eventLoop Functor).stateAt .construct schedule n).quit = true) :
    ∃ m, n ≤ m ∧ ((eventLoop Functor).stateAt .construct schedule m).point = .outside := by
  refine run.eventually (fun s => s.point.phase.aheadOfTest) (fun s => s.quit = true)
    (fun s => s.point = .outside) ?_ ?_ ?_ ?_ quit
  · exact fun s reachable quit inside => ⟨inside, EventLoop.quit_awaited reachable quit⟩
  · intro s action _ quit inside guard
    right
    apply EventLoop.quit_next quit
    rintro rfl
    exact inside guard.1
  · intro s action _ quit inside guard turn
    cases action with
    | testQuit =>
        left
        rw [EventLoop.next, if_pos quit]
    | poll active | doPendingFunctors | clearFlag | destroyFunctors =>
        right
        simp [EventLoop.next, guard.1, LoopPoint.phase, LoopPoint.aheadOfTest]
    | swap =>
        right
        have here : s.point = .swapping := guard
        simp [EventLoop.next, here, LoopPoint.phase, LoopPoint.aheadOfTest]
    | loop | handleEvent | handlerReturn | call | functorReturn | selfPush _ | selfWakeup
    | selfQuit | push _ _ | setQuit _ | wakeup _ => cases turn
  · exact fun s action _ _ advances => congrArg LoopPoint.aheadOfTest advances.phase

/-! ### A functor that is queued -/

/-- How many phases are ahead of the draining of the next batch. -/
def LoopPoint.aheadOfBatch : LoopPoint → Nat
  | .swapping => 1
  | .handling | .inHandler => 2
  | .polling => 3
  | .test => 4
  | .releasing => 5
  | .draining | .inFunctor => 6
  | .outside => 7

namespace EventLoop

variable {Functor : Type}

/-- The functor with this number is called, or in the batch. -/
def InBatch (s : EventLoop Functor) (position : Nat) : Prop :=
  position < s.executed.length + s.rest.length

instance (s : EventLoop Functor) (position : Nat) : Decidable (s.InBatch position) :=
  inferInstanceAs (Decidable (_ < _))

/-- How far the functor with this number is from its batch. -/
def aheadOf (position : Nat) (s : EventLoop Functor) : Nat :=
  if s.InBatch position then 0 else s.point.phase.aheadOfBatch

/-- A queued functor that is neither called nor in the batch is pending. -/
theorem pending_of_not_inBatch {s : EventLoop Functor}
    (reachable : (eventLoop Functor).Reachable s) {position : Nat}
    (queued : position < s.pushed.length) (outside : ¬ s.InBatch position) :
    s.pendingFunctors ≠ [] := by
  intro none
  have all := congrArg List.length (executed_append reachable)
  simp only [List.length_append, List.length_map, none, List.length_nil] at all
  rw [InBatch] at outside
  omega

/-- Between the batches nothing waits in the vector. -/
theorem aheadOf_of_used {s : EventLoop Functor} {position : Nat} (used : s.rest = [])
    (waiting : ¬ position < s.executed.length) :
    s.aheadOf position = s.point.phase.aheadOfBatch := by
  rw [aheadOf, if_neg]
  rw [InBatch, used]
  exact waiting

/-- While a functor is pending the loop does not poll for nothing. -/
theorem pending_awaited {s : EventLoop Functor}
    (reachable : ((eventLoop Functor).restrict SelfCallsInside).Reachable s) {position : Nat}
    (queued : position < s.pushed.length) (waiting : ¬ position < s.executed.length) :
    s.Awaited := by
  intro polling empty
  have used := (vectorInvariant reachable.of_restrict).rest_nil polling (by decide)
  have pending : s.pendingFunctors ≠ [] := by
    apply pending_of_not_inBatch reachable.of_restrict queued
    rw [InBatch, used]
    exact waiting
  have before : s.point.PollsBeforeSwap := by simp [polling, LoopPoint.PollsBeforeSwap]
  rcases (wakeupInvariant reachable).covered before pending with
    (positive | ⟨thread, owes⟩) | ⟨_, inFunctor⟩
  · exact absurd empty (Nat.ne_of_gt positive)
  · exact ⟨thread, by simp [owes]⟩
  · cases polling.symm.trans inFunctor

/-- Only a loop that is told to quit returns. -/
theorem next_running {s : EventLoop Functor} (running : s.point ≠ .outside)
    (goesOn : s.quit ≠ true) (action : LoopAction Functor) :
    (s.next action).point ≠ .outside := by
  cases action with
  | testQuit =>
      rw [next, if_neg goesOn]
      intro outside
      cases outside
  | handleEvent =>
      rw [next]
      split
      · exact running
      · exact running
      · intro outside
        cases outside
  | loop | poll _ | handlerReturn | doPendingFunctors | swap | call | functorReturn | clearFlag
  | destroyFunctors =>
      intro outside
      cases outside
  | selfPush _ | selfWakeup | selfQuit | push _ _ | setQuit _ | wakeup _ => exact running

/-- A phase brings a queued functor closer to its batch, and the swap puts it there. -/
theorem aheadOf_turn {s : EventLoop Functor} (reachable : (eventLoop Functor).Reachable s)
    {position : Nat} (queued : position < s.pushed.length)
    (waiting : ¬ position < s.executed.length) (goesOn : s.quit ≠ true)
    {action : LoopAction Functor} (guard : s.Enabled action) (turn : action.turns = true) :
    (s.next action).aheadOf position < s.aheadOf position := by
  have vector := vectorInvariant reachable
  cases action with
  | testQuit =>
      have here : s.point = .test := guard
      have used := vector.rest_nil here (by decide)
      have after : (s.next .testQuit).aheadOf position =
          LoopPoint.polling.phase.aheadOfBatch := by
        rw [next, if_neg goesOn]
        exact aheadOf_of_used used waiting
      rw [after, aheadOf_of_used used waiting, here]
      decide
  | poll active =>
      have used := vector.rest_nil guard.1 (by decide)
      rw [aheadOf_of_used used waiting, aheadOf_of_used (by exact used) (by exact waiting),
        guard.1]
      exact Nat.lt_succ_self 2
  | doPendingFunctors =>
      have used := vector.rest_nil guard.1 (by decide)
      rw [aheadOf_of_used used waiting, aheadOf_of_used (by rfl) (by exact waiting), guard.1]
      exact Nat.lt_succ_self 1
  | destroyFunctors =>
      have used := vector.rest_nil guard.1 (by decide)
      rw [aheadOf_of_used used waiting, aheadOf_of_used (by rfl) (by exact waiting), guard.1]
      exact Nat.lt_succ_self 4
  | clearFlag =>
      have used : s.rest = [] := List.drop_eq_nil_of_le guard.2
      rw [aheadOf_of_used used waiting, aheadOf_of_used (by exact used) (by exact waiting),
        guard.1]
      exact Nat.lt_succ_self 5
  | swap =>
      have here : s.point = .swapping := guard
      have used := vector.rest_nil here (by decide)
      have taken : (s.next .swap).InBatch position := by
        have all := congrArg List.length (executed_append reachable)
        have batch : (s.next .swap).rest = s.pendingFunctors := by
          simp [EventLoop.next, rest, (vector.fresh here).2]
        simp only [List.length_append, List.length_map, used, List.length_nil] at all
        rw [InBatch, batch]
        change position < s.executed.length + s.pendingFunctors.length
        omega
      rw [aheadOf_of_used used waiting, aheadOf, if_pos taken, here]
      exact Nat.succ_pos 0
  | loop | handleEvent | handlerReturn | call | functorReturn | selfPush _ | selfWakeup
  | selfQuit | push _ _ | setQuit _ | wakeup _ => cases turn

end EventLoop

section Runs

variable {Functor : Type} {schedule : Nat → LoopAction Functor}

/-- As many functors are called as were queued, unless the loop is told to quit. -/
theorem FairLoop.catches_up (run : FairLoop schedule) {n position : Nat}
    (running : ((eventLoop Functor).stateAt .construct schedule n).point ≠ .outside)
    (queued : position < ((eventLoop Functor).stateAt .construct schedule n).pushed.length) :
    ∃ m, n ≤ m ∧ (position < ((eventLoop Functor).stateAt .construct schedule m).executed.length ∨
      ((eventLoop Functor).stateAt .construct schedule m).quit = true) := by
  refine run.eventually (EventLoop.aheadOf position)
    (fun s => s.point ≠ .outside ∧ position < s.pushed.length)
    (fun s => position < s.executed.length ∨ s.quit = true) ?_ ?_ ?_ ?_ ⟨running, queued⟩
  · rintro s reachable ⟨running, queued⟩ short
    exact ⟨running, EventLoop.pending_awaited reachable queued fun called => short (.inl called)⟩
  · rintro s action reachable ⟨running, queued⟩ short guard
    right
    refine ⟨EventLoop.next_running running (fun quit => short (.inr quit)) action, ?_⟩
    exact Nat.lt_of_lt_of_le queued (s.pushed_next action).length_le
  · rintro s action reachable ⟨running, queued⟩ short guard turn
    right
    exact EventLoop.aheadOf_turn reachable.of_restrict queued (fun called => short (.inl called))
      (fun quit => short (.inr quit)) guard turn
  · rintro s action _ _ advances
    have batch : (s.next action).InBatch position ↔ s.InBatch position := by
      rw [EventLoop.InBatch, EventLoop.InBatch, advances.batch]
    rw [EventLoop.aheadOf, EventLoop.aheadOf, advances.phase]
    exact if_congr batch rfl rfl

theorem pushed_stateAt (n m : Nat) (later : n ≤ m) :
    ((eventLoop Functor).stateAt .construct schedule n).pushed <+:
      ((eventLoop Functor).stateAt .construct schedule m).pushed := by
  induction later with
  | refl => exact List.prefix_rfl
  | step _ inductionHypothesis => exact inductionHypothesis.trans (EventLoop.pushed_next _ _)

end Runs

/-- In every fair run a functor that is queued for a running loop is called, unless the loop is told
to quit. -/
theorem queued_functor_runs {Functor : Type} {schedule : Nat → LoopAction Functor}
    (run : FairLoop schedule) {n position : Nat} {functor : Functor}
    (running : ((eventLoop Functor).stateAt .construct schedule n).point ≠ .outside)
    (queued : (((eventLoop Functor).stateAt .construct schedule n).pushed.map Prod.snd)[position]? =
      some functor) :
    ∃ m, n ≤ m ∧
      ((((eventLoop Functor).stateAt .construct schedule m).executed.map Prod.snd)[position]? =
          some functor ∨
        ((eventLoop Functor).stateAt .construct schedule m).quit = true) := by
  have read : ∀ {front whole : List Functor}, front <+: whole → position < front.length →
      whole[position]? = front[position]? := by
    rintro front _ ⟨others, rfl⟩ inside
    exact List.getElem?_append_left inside
  have inside : position <
      (((eventLoop Functor).stateAt .construct schedule n).pushed.map Prod.snd).length :=
    (List.getElem?_eq_some_iff.mp queued).1
  obtain ⟨m, later, called | quit⟩ := run.catches_up running (by rwa [List.length_map] at inside)
  · refine ⟨m, later, .inl ?_⟩
    have start := Machine.Reachable.start (M := (eventLoop Functor).restrict SelfCallsInside)
      (s := .construct) rfl
    have reachable := (start.stateAt run.admitted m).of_restrict
    rw [Machine.restrict_stateAt] at reachable
    -- what is called is the front of what is queued
    have front : ((eventLoop Functor).stateAt .construct schedule m).executed.map Prod.snd <+:
        ((eventLoop Functor).stateAt .construct schedule m).pushed.map Prod.snd :=
      ⟨_, EventLoop.executed_append reachable⟩
    have grown : (((eventLoop Functor).stateAt .construct schedule n).pushed.map Prod.snd) <+:
        ((eventLoop Functor).stateAt .construct schedule m).pushed.map Prod.snd :=
      (pushed_stateAt n m later).map Prod.snd
    rw [← read front (by rwa [List.length_map]), read grown inside]
    exact queued
  · exact ⟨m, later, .inr quit⟩

/-- A functor is queued while the loop polls, and queues another one; then a thread tells the loop
to quit, and behind it nothing happens but that `quit()` is called again and again. -/
def demoFairSchedule : List (LoopAction Nat) :=
  [.loop, .testQuit, .push 0 7, .wakeup 0, .poll [.wakeupChannel], .handleEvent,
    .doPendingFunctors, .swap, .call, .selfPush 8, .selfWakeup, .functorReturn, .clearFlag,
    .destroyFunctors, .setQuit 1, .wakeup 1, .testQuit]

theorem demoFairSchedule_fair : FairLoop (demoFairSchedule.getD · .selfQuit) := by
  have stays : ∀ s : EventLoop Nat,
      s.point = .outside ∧ s.selfQueued = false ∧ (∀ thread, s.threads thread = .idle) →
        ((eventLoop Nat).restrict SelfCallsInside).enabled s .selfQuit ∧
          (s.next .selfQuit).point = .outside ∧ (s.next .selfQuit).selfQueued = false ∧
            ∀ thread, (s.next .selfQuit).threads thread = .idle :=
    fun s rest => ⟨⟨⟨.inl rest.1, rest.2.1⟩, trivial⟩, rest⟩
  have front : ((eventLoop Nat).restrict SelfCallsInside).Admits .construct demoFairSchedule := by
    decide
  obtain ⟨admitted, kept⟩ := Machine.admitsEndless_getD stays front
    ⟨by decide, by decide, fun thread => by rcases thread with _ | _ | thread <;> rfl⟩
  simp only [Machine.restrict_stateAt] at kept
  refine ⟨admitted, fun n enabled => ?_, fun thread n enabled => ?_, fun n => ?_⟩
  · obtain ⟨action, library, guard⟩ := enabled _ (Nat.le_max_left n demoFairSchedule.length)
    have outside := (kept _ (Nat.le_max_right n demoFairSchedule.length)).1
    rw [Machine.restrict_stateAt] at guard
    cases action with
    | testQuit | swap => cases outside.symm.trans guard.1
    | poll | handleEvent | doPendingFunctors | call | clearFlag =>
        cases outside.symm.trans guard.1.1
    | loop | selfPush | selfWakeup | selfQuit | push | setQuit => cases library
    | handlerReturn | functorReturn | destroyFunctors | wakeup => cases library
  · obtain ⟨action, owes, guard⟩ := enabled _ (Nat.le_max_left n demoFairSchedule.length)
    have idle := (kept _ (Nat.le_max_right n demoFairSchedule.length)).2.2 thread
    cases action with
    | wakeup other =>
        cases owes
        exact absurd idle guard
    | loop | selfPush | selfWakeup | selfQuit | push | setQuit => cases owes
    | testQuit | poll | handleEvent | doPendingFunctors | swap | call | clearFlag => cases owes
    | handlerReturn | functorReturn | destroyFunctors => cases owes
  · refine ⟨max n demoFairSchedule.length, Nat.le_max_left _ _, ?_⟩
    rw [(kept _ (Nat.le_max_right n demoFairSchedule.length)).1]
    decide

theorem queued_functor_runs_demo :
    ∃ m, 3 ≤ m ∧
      ((((eventLoop Nat).stateAt .construct (demoFairSchedule.getD · .selfQuit) m).executed.map
          Prod.snd)[0]? = some 7 ∨
        ((eventLoop Nat).stateAt .construct (demoFairSchedule.getD · .selfQuit) m).quit = true) :=
  queued_functor_runs demoFairSchedule_fair (by decide) (by decide)

theorem quit_loop_returns_demo :
    ∃ m, 15 ≤ m ∧ ((eventLoop Nat).stateAt .construct
      (demoFairSchedule.getD · .selfQuit) m).point = .outside :=
  quit_loop_returns demoFairSchedule_fair (by decide)

end EduMuduo

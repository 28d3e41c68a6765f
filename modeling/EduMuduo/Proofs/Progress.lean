/-
Module: EduMuduo.Proofs.Progress
Layer: Proofs
Purpose: No thread is ever stuck.  The only wait in the server is the `join()` of `~TcpServer`;
  every other loop thread that has not come to its end can take its next step, whatever stands on
  its stack: library code runs to its end, user code can return, and `poll` comes back at the latest
  with its timeout.  The thread that a join waits for has been asked to quit and can go on itself;
  it quits, too, if it was in `loop()` when it was asked.
Imports: EduMuduo.Proofs.Destruction, EduMuduo.Proofs.ServerReferences
Trusted boundary: none
Main exports: World.goesOn?, World.CanGoOn, World.Joins, World.loop_goes_on, World.AsksInLoop,
  World.Asked, asked, deadlock_free
-/
import EduMuduo.Proofs.Destruction
import EduMuduo.Proofs.ServerReferences

namespace EduMuduo

open Library

namespace World

/-- The loop whose thread an action takes further: a step of the library, or the return of user
code to it. -/
def goesOn? : Action → Option LoopId
  | .enterLoop l | .poll l _ | .handleEvent l _ | .doPendingFunctors l | .endBatch l
  | .destroyLoop l | .run l _ | .submit l | .userReturn l => some l
  | .destroyConnection _ | .destroyMember => some 0
  | .userSend _ _ _ | .userShutdown _ _ | .userSetHighWaterMarkCallback _ _ _
  | .userRetrieve _ _ _ | .userTake _ _ _ | .userGive _ _ _ | .copy _ _ _ | .drop _ _
  | .send _ _ _ | .shutdown _ _ | .queueUser _ _ | .queueInLoop _ | .quit _ | .destroyServer =>
      none

theorem actor_of_goesOn {a : Action} {l : LoopId} (goesOn : goesOn? a = some l) :
    actor? a = some l := by
  cases a with
  | enterLoop l' | poll l' active | handleEvent l' named | doPendingFunctors l' | endBatch l'
  | destroyLoop l' | run l' kernel | submit l' | userReturn l' | destroyConnection c
  | destroyMember => exact goesOn
  | _ => cases goesOn

/-- The thread of loop `l` can take a step. -/
def CanGoOn (w : World) (l : LoopId) : Prop := ∃ a, goesOn? a = some l ∧ w.Enabled a

/-- The thread of the base loop waits in `join()` for the thread of loop `l`. -/
structure Joins (w : World) (l : LoopId) : Prop where
  top : (w.loops 0).stack.head? = some (.joinThread l)
  running : (w.loops l).destroyed = false

/-! ### The next step of a thread -/

/-- A kernel that has nothing to read and takes nothing. -/
def calmKernel : Kernel := ⟨.data [], .accepted 0⟩

/-- Its answers are within every contract. -/
theorem calmKernel_fits (w : World) (job : Job) : w.KernelFits calmKernel job := by
  have nothing : ∀ room, 0 ≤ room := Nat.zero_le
  cases job with
  | task task =>
      cases task with
      | sendInLoop c data caller => exact nothing _
      | _ => trivial
  | callback callback c =>
      cases callback with
      | write => exact nothing _
      | read => exact nothing _
      | _ => trivial
  | _ => trivial

section Next

variable {w : World} {l : LoopId}

/-- With an empty stack the thread is in `loop()` itself, in front of it or behind it. -/
theorem goes_on_of_empty (placed : w.Placed) (within : w.isLoop l)
    (empty : (w.loops l).stack = []) (busy : ¬ w.Ended l) : w.CanGoOn l := by
  cases phase : (w.loops l).phase with
  | entering => exact ⟨.enterLoop l, rfl, within, phase, empty⟩
  | polling => exact ⟨.poll l [], rfl, within, phase, List.forall_mem_nil _, List.nodup_nil⟩
  | handling =>
      cases active : (w.loops l).activeChannels with
      | nil => exact ⟨.doPendingFunctors l, rfl, within, phase, empty, active⟩
      | cons first rest =>
          refine ⟨.handleEvent l false, rfl, within, phase, empty, ?_⟩
          rw [active]
          exact List.cons_ne_nil _ _
  | draining =>
      cases batch : (w.loops l).functors.batch with
      | nil => exact ⟨.endBatch l, rfl, within, phase, empty, batch⟩
      | cons task rest =>
          have waiting : task ∈ (w.loops l).functors.waiting := by
            rw [BatchQueue.waiting, batch]
            exact List.mem_cons_self
          have here : w.target task = l := ((placed.loops l).waiting task waiting).2
          have fetched : w.current l = some (.task task) := by
            simp only [current, Loop.fetch, empty, phase, batch, if_true, Option.map_some]
          exact ⟨.run l calmKernel, rfl, within, _, fetched, here, w.calmKernel_fits _⟩
  | stopped =>
      have running : ¬ (l ≠ 0 → (w.loops l).destroyed = true) :=
        fun destroyed => busy ⟨⟨phase, empty⟩, destroyed⟩
      obtain ⟨pool, alive⟩ := Classical.not_imp.mp running
      exact ⟨.destroyLoop l, rfl, within, pool, phase, Bool.not_eq_true _ ▸ alive⟩

/-- A job on top of the stack is run, or handed to the loop on which it belongs. -/
theorem goes_on_of_job (within : w.isLoop l) {job : Job} {rest : List Frame}
    (top : (w.loops l).stack = .job job :: rest) : w.CanGoOn l := by
  have fetched : w.current l = some job := by
    rw [current, Loop.fetch, top]
    rfl
  have ready : w.RunsHere l job → w.CanGoOn l :=
    fun here => ⟨.run l calmKernel, rfl, within, job, fetched, here, w.calmKernel_fits job⟩
  cases job with
  | task task =>
      by_cases here : w.target task = l
      · exact ready here
      · refine ⟨.submit l, rfl, within, ?_⟩
        rw [submitted, top]
        simp only [if_neg here, Option.isSome_some]
  | callback callback c => exact ready trivial
  | releaseGuard c => exact ready trivial
  | closeCallback c => exact ready trivial
  | removeChannel c => exact ready trivial

/-- The destructor goes through its connections one by one. -/
theorem goes_on_of_destroyServer (placed : w.Placed) {rest : List Frame}
    (top : (w.loops 0).stack = .destroyServer :: rest) : w.CanGoOn 0 := by
  cases entries : w.server.connections with
  | nil =>
      refine ⟨.destroyMember, rfl, ?_⟩
      change w.MemberReady (w.loops 0).stack
      rw [top]
      exact entries
  | cons entry others =>
      obtain ⟨name, c⟩ := entry
      have stored : (name, c) ∈ w.server.connections := by
        rw [entries]
        exact List.mem_cons_self
      refine ⟨.destroyConnection c, rfl, ?_, ?_⟩
      · rw [top]
        rfl
      · rw [(placed.entries name c stored).2]
        exact stored

/-- Every frame but a join that waits has a step behind it. -/
theorem goes_on_of_frame (placed : w.Placed) (within : w.isLoop l) {frame : Frame}
    {rest : List Frame} (top : (w.loops l).stack = frame :: rest) :
    w.CanGoOn l ∨ l = 0 ∧ ∃ l', w.Joins l' := by
  have onTop : frame ∈ (w.loops l).stack := by
    rw [top]
    exact List.mem_cons_self
  have ok := (placed.loops l).stack frame onTop
  cases frame with
  | job job => exact .inl (goes_on_of_job within top)
  | user held =>
      refine .inl ⟨.userReturn l, rfl, within, ?_⟩
      rw [Loop.inUserCode, top]
  | destroyServer =>
      have base : l = 0 := ok
      subst base
      exact .inl (goes_on_of_destroyServer placed top)
  | quitThread l' | destroyAcceptor =>
      have base : l = 0 := ok
      subst base
      refine .inl ⟨.destroyMember, rfl, ?_⟩
      change w.MemberReady (w.loops 0).stack
      rw [top]
      trivial
  | joinThread l' =>
      have base : l = 0 := ok
      subst base
      cases ended : (w.loops l').destroyed with
      | true =>
          refine .inl ⟨.destroyMember, rfl, ?_⟩
          change w.MemberReady (w.loops 0).stack
          rw [top]
          exact ended
      | false =>
          refine .inr ⟨rfl, l', ?_, ended⟩
          rw [top]
          rfl

/-- A thread can take its next step, unless it has ended or waits in `join()`. -/
theorem loop_goes_on (placed : w.Placed) (within : w.isLoop l) (busy : ¬ w.Ended l) :
    w.CanGoOn l ∨ l = 0 ∧ ∃ l', w.Joins l' := by
  cases stack : (w.loops l).stack with
  | nil => exact .inl (goes_on_of_empty placed within stack busy)
  | cons frame rest => exact goes_on_of_frame placed within stack

end Next

/-- A thread that has come to its end takes no step. -/
theorem Ended.not_goes_on {w : World} {l : LoopId} (ended : w.Ended l) : ¬ w.CanGoOn l := by
  rintro ⟨a, goesOn, guard⟩
  cases ended.only_destroys guard (actor_of_goesOn goesOn)
  cases goesOn

/-- Behind a `quit()` stands the `join()` of the same thread, and then the threads after it. -/
theorem Destruction.joining_eq {w : World} {frames : List Frame} (course : w.Destruction frames)
    {l : LoopId} {rest : List Frame} (split : frames = .joinThread l :: rest) :
    ∃ first, l = first + 1 ∧ first < w.server.ioLoops ∧ (w.loops l).asked = true ∧
      rest = memberFrames l w.server.ioLoops := by
  cases course with
  | notBegun stage => cases split
  | connections stage => cases (List.cons.inj split).1
  | quitting first least stage ended =>
      rcases memberFrames_head least split.symm with ⟨_, other, _⟩ | ⟨_, other, _⟩ <;> cases other
  | joining first more stage ended asked =>
      obtain ⟨same, others⟩ := List.cons.inj split
      cases same
      exact ⟨first, rfl, more, asked, others.symm⟩
  | finished stage ended => cases split

theorem Joins.frames {w : World} {l : LoopId} (joins : w.Joins l) :
    ∃ rest, w.destructorFrames = .joinThread l :: rest := by
  obtain ⟨rest, top⟩ := List.head?_eq_some_iff.mp joins.top
  exact ⟨rest.filter Frame.isDestructor, by rw [destructorFrames, top]; rfl⟩

/-- What `~TcpServer` waits for is a thread of the pool that has been asked to quit. -/
theorem Destruction.joins {w : World} (course : w.Destruction w.destructorFrames) {l : LoopId}
    (joins : w.Joins l) : l ≠ 0 ∧ w.isLoop l ∧ (w.loops l).asked = true := by
  obtain ⟨rest, found⟩ := joins.frames
  obtain ⟨first, rfl, more, asked, _⟩ := course.joining_eq found
  exact ⟨Nat.succ_ne_zero first, more, asked⟩

/-! ### What `quit()` reaches -/

/-- The loop on which `~TcpServer` calls `quit()`. -/
def quits? (w : World) : Action → Option LoopId
  | .destroyMember =>
      match (w.loops 0).stack with
      | .quitThread l :: _ => some l
      | _ => none
  | _ => none

/-- `~TcpServer` calls `quit()` only on a loop that has been entered: the entry of `loop()` would
store over it. -/
def AsksInLoop (w : World) (a : Action) : Prop := ∀ l ∈ w.quits? a, (w.loops l).phase ≠ .entering

instance (w : World) (a : Action) : Decidable (w.AsksInLoop a) :=
  inferInstanceAs (Decidable (∀ l ∈ w.quits? a, _))

/-- The loop is entered and is to quit. -/
structure Quits (w : World) (l : LoopId) : Prop where
  quit : (w.loops l).quit = true
  inside : (w.loops l).phase ≠ .entering

theorem Quits.next {w : World} {a : Action} (guard : w.Enabled a) {l : LoopId}
    (quits : w.Quits l) : (w.next a).Quits l where
  quit := quit_next quits.quit fun running => by
    subst running
    exact quits.inside guard.2.1
  inside := entered_next guard quits.inside

/-- The threads that `~TcpServer` has still to join quit, or it has still to ask them. -/
def Asked (w : World) : Prop :=
  ∀ l, .joinThread l ∈ w.destructorFrames → .quitThread l ∈ w.destructorFrames ∨ w.Quits l

/-- The destructor asks a thread before it joins it. -/
theorem Asked.member {w : World} (asked : w.Asked) (guard : w.Enabled .destroyMember)
    (inside : w.AsksInLoop .destroyMember) : (w.next .destroyMember).Asked := by
  have ready : w.MemberReady (w.loops 0).stack := guard
  -- a thread whose two frames are not touched
  have kept {l : LoopId} {rest : List Frame}
      (before : .quitThread l ∈ rest ∨ w.Quits l) :
      .quitThread l ∈ rest ∨ (w.next .destroyMember).Quits l := before.imp_right (.next guard)
  intro l joined
  cases top : (w.loops 0).stack with
  | nil =>
      rw [top] at ready
      cases ready
  | cons frame rest =>
      have frames : w.destructorFrames = (frame :: rest).filter Frame.isDestructor := by
        rw [destructorFrames, top]
      have asked := frames ▸ asked l
      cases frame with
      | job job | user held =>
          rw [top] at ready
          cases ready
      | destroyServer =>
          rw [(member_destroyServer top).2] at joined ⊢
          rcases List.mem_append.mp joined with new | old
          · exact .inl (List.mem_append_left _ (quitThread_mem_memberFrames.mpr new))
          · refine kept ((asked (List.mem_cons_of_mem _ old)).imp_left fun member => ?_)
            have below := (List.mem_cons.mp member).resolve_left fun same => by cases same
            exact List.mem_append_right _ below
      | quitThread l' =>
          obtain ⟨_, after, requested⟩ := member_quitThread top
          have quits : (w.next .destroyMember).Quits l' := by
            refine ⟨congrArg Prod.fst requested, entered_next guard ?_⟩
            apply inside
            rw [quits?, top]
            rfl
          rw [after] at joined ⊢
          rcases asked (List.mem_cons_of_mem _ joined) with member | before
          · rcases List.mem_cons.mp member with same | later
            · cases same
              exact .inr quits
            · exact .inl later
          · exact .inr (before.next guard)
      | joinThread l' =>
          rw [(member_joinThread top).2] at joined ⊢
          refine kept ((asked (List.mem_cons_of_mem _ joined)).imp_left fun member => ?_)
          exact (List.mem_cons.mp member).resolve_left fun same => by cases same
      | destroyAcceptor =>
          rw [(member_destroyAcceptor top).2] at joined ⊢
          refine kept ((asked (List.mem_cons_of_mem _ joined)).imp_left fun member => ?_)
          exact (List.mem_cons.mp member).resolve_left fun same => by cases same

theorem Asked.next {w : World} (asked : w.Asked) {a : Action} (guard : w.Enabled a)
    (inside : w.AsksInLoop a) : (w.next a).Asked := by
  cases kind : destroys a with
  | false =>
      intro l
      rw [destructorFrames_next guard kind]
      exact fun joined => (asked l joined).imp_right (.next guard)
  | true =>
      cases a with
      | destroyMember => exact asked.member guard inside
      | destroyServer =>
          intro l
          rw [destructorFrames_destroyServer]
          intro joined
          have before := asked l ((List.mem_cons.mp joined).resolve_left nofun)
          exact before.imp (List.mem_cons_of_mem _) (.next guard)
      | _ => cases kind

/-- So the thread that is joined quits. -/
theorem Asked.joins {w : World} (asked : w.Asked) (course : w.Destruction w.destructorFrames)
    {l : LoopId} (joins : w.Joins l) : w.Quits l := by
  obtain ⟨rest, found⟩ := joins.frames
  obtain ⟨first, rfl, _, _, others⟩ := course.joining_eq found
  refine (asked (first + 1) (by rw [found]; exact List.mem_cons_self)).resolve_left ?_
  rw [found, others]
  intro member
  have later := (List.mem_cons.mp member).resolve_left nofun
  exact Nat.lt_irrefl _ (lt_of_mem_memberFrames later)

end World

theorem asked {w : World} (reachable : (server.restrict World.AsksInLoop).Reachable w) :
    w.Asked := by
  refine reachable.invariant (I := World.Asked) ?_ ?_
  · rintro w ⟨name, ipPort, callbacks, ioLoops, users, rfl⟩ l joined
    exact absurd joined List.not_mem_nil
  · exact fun w a _ asked guard => asked.next guard.1 guard.2

/-- Right behind `start()` the server is destroyed.  `~TcpServer` asks the thread of loop 1 to quit,
which then enters `loop()`. -/
def demoLostQuit : List Action :=
  [.destroyServer, .destroyMember, .destroyMember, .enterLoop 1, .endBatch 1]

/-- The entry of `loop()` has stored over the request, and the thread that is joined polls. -/
theorem joined_without_quit :
    ¬ ∀ (w : World) (l : LoopId), server.Reachable w → w.Joins l → w.Quits l := by
  intro claim
  have admitted : server.Admits (demoServer 1 0) demoLostQuit := by decide +kernel
  have joins : (server.exec (demoServer 1 0) demoLostQuit).Joins 1 :=
    ⟨by decide +kernel, by decide +kernel⟩
  have quits := (claim _ 1 (admitted.reachable (demoServer_initial 1 0)) joins).quit
  revert quits
  decide +kernel

/-- No loop thread is stuck: one that has not come to its end can take its next step, or it is the
base loop's in the `join()` of `~TcpServer`, and the thread that it waits for is one of the pool,
has been asked to quit and can take its next step. -/
theorem deadlock_free {w : World} (reachable : server.Reachable w) {l : LoopId}
    (within : w.isLoop l) (busy : ¬ w.Ended l) :
    w.CanGoOn l ∨
      l = 0 ∧ ∃ l', l' ≠ 0 ∧ w.isLoop l' ∧ w.Joins l' ∧ (w.loops l').asked = true ∧
        w.CanGoOn l' := by
  have ok := placed reachable
  rcases World.loop_goes_on ok within busy with goesOn | ⟨base, l', joins⟩
  · exact .inl goesOn
  · obtain ⟨pool, within', asked⟩ := (destruction reachable).joins joins
    have busy' : ¬ w.Ended l' := fun ended =>
      Bool.false_ne_true (joins.running.symm.trans (ended.destroyed pool))
    rcases World.loop_goes_on ok within' busy' with goesOn | ⟨base', _⟩
    · exact .inr ⟨base, l', pool, within', joins, asked, goesOn⟩
    · exact absurd base' pool

/-- `~TcpServer` has closed its connection and waits for the thread of loop 1. -/
def demoWaiting : List Action :=
  demoOpening ++ [.destroyServer, .destroyConnection 0, .destroyMember, .destroyMember]

theorem deadlock_free_demo :
    (server.exec (demoServer 1 1) demoWaiting).CanGoOn 0 ∨
      (0 : LoopId) = 0 ∧ ∃ l', l' ≠ 0 ∧ (server.exec (demoServer 1 1) demoWaiting).isLoop l' ∧
        (server.exec (demoServer 1 1) demoWaiting).Joins l' ∧
          ((server.exec (demoServer 1 1) demoWaiting).loops l').asked = true ∧
            (server.exec (demoServer 1 1) demoWaiting).CanGoOn l' := by
  have admitted : server.Admits (demoServer 1 1) demoWaiting := by decide +kernel
  refine deadlock_free (admitted.reachable (demoServer_initial 1 1)) (by decide +kernel) ?_
  intro ended
  have running : ((server.exec (demoServer 1 1) demoWaiting).loops 0).phase ≠ .stopped := by
    decide +kernel
  exact running ended.phase

end EduMuduo

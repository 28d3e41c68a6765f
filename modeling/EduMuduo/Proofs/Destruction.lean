/-
Module: EduMuduo.Proofs.Destruction
Layer: Proofs
Purpose: The course of `~TcpServer`.  The frames of the destructor on the base loop's stack are its
  program counter: the loop over `connections_`, then for one thread of the pool after the other
  `quit()` and `join()`, at last the acceptor.  Whatever else is on the stack and whatever the other
  threads do, the frames that are left are an end piece of this list, the threads before them have
  ended, and the thread to be joined has been asked to quit.
Imports: EduMuduo.Proofs.Batches, EduMuduo.Proofs.Lifecycle, EduMuduo.Proofs.Range
Trusted boundary: none
Main exports: World.destructorFrames, World.Destruction, destruction, World.actor?,
  pool_silent_when_destroyed
-/
import EduMuduo.Proofs.Batches
import EduMuduo.Proofs.Lifecycle
import EduMuduo.Proofs.Range

namespace EduMuduo

open Library

namespace World

/-! ### What only `~TcpServer` changes -/

/-- Whether `~TcpServer` has begun, and whether it has ended. -/
def stage (w : World) : Bool × Bool := (w.server.destroying, w.server.destroyed)

/-- The two actions that begin and continue `~TcpServer`; the destruction of a connection is but a
turn of its loop. -/
def destroys : Action → Bool
  | .destroyServer | .destroyMember => true
  | _ => false

theorem runInLoop_stage (w : World) (l ioLoop : LoopId) (task : Task) :
    (w.runInLoop l ioLoop task).stage = w.stage := by
  rw [runInLoop]
  split <;> rfl

theorem newConnection_stage (w : World) (l : LoopId) (named : Bool) :
    (w.newConnection l named).stage = w.stage := by
  obtain ⟨next, same⟩ := getNextLoop_snd w.server
  cases named with
  | false => simp only [newConnection, countAccepted, same, stage]; rfl
  | true =>
      simp only [newConnection, if_true, runInLoop_stage]
      simp only [addConnection, countAccepted, same, stage]

theorem next_stage (w : World) {a : Action} (other : destroys a = false) :
    (w.next a).stage = w.stage := by
  cases a with
  | handleEvent l named =>
      rw [next]
      split
      · rfl
      · rename_i first rest split
        cases first with
        | channel c revents => rfl
        | acceptor =>
            rw [handleEvent]
            split
            · rfl
            · exact newConnection_stage _ l named
  | run l kernel | submit l | userSend l c data | queueInLoop t | send t c data =>
      rw [next]
      split <;> rfl
  | userShutdown l c | shutdown t c =>
      simp only [next]
      split <;> rfl
  | destroyConnection c => exact runInLoop_stage _ _ _ _
  | destroyServer | destroyMember => cases other
  | enterLoop l | poll l active | doPendingFunctors l | endBatch l | destroyLoop l
  | userSetHighWaterMarkCallback l c mark | userRetrieve l c len | userTake l t c | userGive l t c
  | userReturn l | copy t other c | drop t c | queueUser t c | quit l => rfl

/-! ### What lasts -/

/-- A loop that has stopped does not start again. -/
theorem stopped_next {w : World} {a : Action} (guard : w.Enabled a) {l : LoopId}
    (stopped : (w.loops l).phase = .stopped) : ((w.next a).loops l).phase = .stopped := by
  have change := next_phase guard l
  generalize ((w.next a).loops l).phase = phase at change ⊢
  cases change with
  | entered running =>
      subst running
      have entering : (w.loops l).phase = .entering := guard.2.1
      rw [stopped] at entering
      cases entering
  | same unpolled => exact stopped
  | polled active running =>
      subst running
      have polling : (w.loops l).phase = .polling := guard.2.1
      rw [stopped] at polling
      cases polling
  | drains running =>
      subst running
      have handling : (w.loops l).phase = .handling := guard.2.1
      rw [stopped] at handling
      cases handling
  | ended running =>
      subst running
      have draining : (w.loops l).phase = .draining := guard.2.1
      rw [stopped] at draining
      cases draining

/-- `quit_`, and whether `quit()` has been called. -/
def request (w : World) (l : LoopId) : Bool × Bool := ((w.loops l).quit, (w.loops l).asked)

theorem request_setLoop_same (w : World) (l l' : LoopId) {loop : Loop}
    (quit : loop.quit = (w.loops l').quit) (asked : loop.asked = (w.loops l').asked) :
    (w.setLoop l' loop).request l = w.request l :=
  congrArg₂ Prod.mk (setLoop_part_same Loop.quit _ _ _ quit)
    (setLoop_part_same Loop.asked _ _ _ asked)

theorem request_runInLoop (w : World) (l l' ioLoop : LoopId) (task : Task) :
    (w.runInLoop l' ioLoop task).request l = w.request l := by
  rw [runInLoop]
  split <;> exact request_setLoop_same _ _ _ (by rfl) (by rfl)

/-- Everything that action `a` can make of the request to loop `l`. -/
inductive RequestChange (w : World) (a : Action) (l : LoopId) : Bool × Bool → Prop where
  | same : RequestChange w a l (w.request l)
  | called : RequestChange w a l (true, true)
  | entered (running : a = .enterLoop l) : RequestChange w a l (false, (w.loops l).asked)

theorem RequestChange.of_eq {w : World} {a : Action} {l : LoopId} {after : Bool × Bool}
    (kept : after = w.request l) : RequestChange w a l after := kept ▸ .same

theorem RequestChange.quit (w : World) (a : Action) (l l' : LoopId) {w' : World}
    (before : w'.request l = w.request l) :
    RequestChange w a l ((w'.setLoop l' { w'.loops l' with quit := true, asked := true }).request
      l) := by
  by_cases here : l = l'
  · subst here
    rw [request, setLoop_loops, Function.update_self]
    exact .called
  · rw [request, setLoop_loops, Function.update_of_ne here]
    exact .of_eq before

theorem next_request (w : World) (a : Action) (l : LoopId) :
    RequestChange w a l ((w.next a).request l) := by
  cases a with
  | enterLoop l' =>
      by_cases here : l = l'
      · subst here
        rw [request, next, setLoop_loops, Function.update_self]
        exact .entered rfl
      · rw [request, next, setLoop_loops, Function.update_of_ne here]
        exact .same
  | poll l' active | doPendingFunctors l' | endBatch l' | destroyLoop l' | userTake l' t c
  | userReturn l' | destroyServer => exact .of_eq (request_setLoop_same _ _ _ (by rfl) (by rfl))
  | quit l' => exact .quit w _ l l' rfl
  | handleEvent l' named =>
      rw [next]
      split
      · exact .same
      · rename_i active rest _
        have popped : (w.setLoop l' { w.loops l' with activeChannels := rest }).request l =
            w.request l := request_setLoop_same _ _ _ (by rfl) (by rfl)
        cases active with
        | channel c revents =>
            exact .of_eq ((request_setLoop_same _ _ _ (by rfl) (by rfl)).trans popped)
        | acceptor =>
            rw [handleEvent]
            split
            · exact .of_eq popped
            · cases named with
              | false => exact .of_eq popped
              | true => exact .of_eq ((request_runInLoop _ _ _ _ _).trans popped)
  | run l' kernel =>
      rw [next]
      split
      · rename_i job loop fetched
        have steady : loop.quit = (w.loops l').quit ∧ loop.asked = (w.loops l').asked := by
          cases Loop.fetched fetched <;> exact ⟨rfl, rfl⟩
        refine .of_eq ((request_setLoop_same _ _ _ (by rfl) (by rfl)).trans ?_)
        exact (request_setLoop_same _ _ _ (by exact steady.1) (by exact steady.2)).trans rfl
      · exact .same
  | submit l' =>
      rw [next]
      split
      · refine .of_eq ((request_setLoop_same _ _ _ (by rfl) (by rfl)).trans ?_)
        exact request_setLoop_same _ _ _ (by rfl) (by rfl)
      · exact .same
  | queueInLoop t =>
      rw [next]
      split
      · exact .of_eq ((request_setLoop_same _ _ _ (by rfl) (by rfl)).trans rfl)
      · exact .same
  | userSend l' c data =>
      rw [next]
      split
      · exact .of_eq (request_setLoop_same _ _ _ (by rfl) (by rfl))
      · exact .same
  | userShutdown l' c =>
      simp only [next]
      split
      · exact .of_eq ((request_setLoop_same _ _ _ (by rfl) (by rfl)).trans rfl)
      · exact .same
  | destroyConnection c => exact .of_eq (request_runInLoop _ _ _ _ _)
  | destroyMember =>
      rw [next, destroyMember]
      split
      · exact .of_eq (request_setLoop_same _ _ _ (by rfl) (by rfl))
      · exact .quit w _ l _ (request_setLoop_same _ _ _ (by rfl) (by rfl))
      · exact .of_eq (request_setLoop_same _ _ _ (by rfl) (by rfl))
      · exact .of_eq (request_setLoop_same _ _ _ (by rfl) (by rfl))
      · exact .same
  | send t c data | shutdown t c =>
      simp only [next]
      split <;> exact .same
  | userSetHighWaterMarkCallback l' c mark | userRetrieve l' c len | userGive l' t c
  | copy t other c | drop t c | queueUser t c => exact .same

/-- Only the entry of `loop()` clears `quit_`. -/
theorem quit_next {w : World} {a : Action} {l : LoopId} (quit : (w.loops l).quit = true)
    (inside : a ≠ .enterLoop l) : ((w.next a).loops l).quit = true := by
  have change := w.next_request a l
  generalize after : (w.next a).request l = request at change
  cases change with
  | same => exact (congrArg Prod.fst after).trans quit
  | called => exact congrArg Prod.fst after
  | entered running => exact absurd running inside

theorem asked_next {w : World} {a : Action} {l : LoopId} (asked : (w.loops l).asked = true) :
    ((w.next a).loops l).asked = true := by
  have change := w.next_request a l
  generalize after : (w.next a).request l = request at change
  cases change with
  | same | entered => exact (congrArg Prod.snd after).trans asked
  | called => exact congrArg Prod.snd after

/-- A thread that has ended does not come back. -/
theorem loopDestroyed_next {w : World} {a : Action} {l : LoopId} (guard : w.Enabled a)
    (destroyed : (w.loops l).destroyed = true) : ((w.next a).loops l).destroyed = true := by
  rcases next_destroyed guard l with same | ended
  · exact same.trans destroyed
  · exact ended.2

/-! ### The frames of the destructor -/

/-- A loop is not entered twice. -/
theorem entered_next {w : World} {a : Action} (guard : w.Enabled a) {l : LoopId}
    (inside : (w.loops l).phase ≠ .entering) : ((w.next a).loops l).phase ≠ .entering := by
  have change := next_phase guard l
  generalize ((w.next a).loops l).phase = phase at change
  cases change with
  | same unpolled => exact inside
  | entered running | polled active running | drains running => exact nofun
  | ended running => split <;> exact nofun

/-- The frames of `~TcpServer` that are left on the base loop's stack. -/
def destructorFrames (w : World) : List Frame := (w.loops 0).stack.filter Frame.isDestructor

theorem filter_isDestructor_eq_nil {frames : List Frame}
    (none : ∀ frame ∈ frames, frame.isDestructor = false) :
    frames.filter Frame.isDestructor = [] := by
  rw [List.filter_eq_nil_iff]
  intro frame member
  simp [none frame member]

/-- No other action adds or removes one. -/
theorem destructorFrames_next {w : World} {a : Action} (guard : w.Enabled a)
    (other : destroys a = false) : (w.next a).destructorFrames = w.destructorFrames := by
  have change := next_stack guard 0
  unfold destructorFrames
  generalize ((w.next a).loops 0).stack = stack at change ⊢
  cases change with
  | same idle => rfl
  | dispatched named c revents running empty active =>
      have none := filter_isDestructor_eq_nil fun frame member =>
        (w.dispatch_frames c revents frame member).isDestructor
      rw [none, empty]
      rfl
  | ran kernel job loop running fetched =>
      have none := filter_isDestructor_eq_nil fun frame member =>
        (w.perform_leaves 0 kernel job frame member).isDestructor
      rw [List.filter_append, none, List.nil_append]
      rcases Loop.fetch_stack fetched with top | ⟨bottom, empty, _⟩
      · rw [top]
        rfl
      · rw [bottom, empty]
  | called task idle pushed => rfl
  | submitted task rest running top => rw [top]; rfl
  | returned held rest running top => rw [top]; rfl
  | took t c held rest running top => rw [top]; rfl
  | destroying running base =>
      subst running
      cases other
  | member frame frames rest running top plain others =>
      subst running
      cases other

/-- What `~TcpServer` has still to do when `first` of `n` threads are joined. -/
def memberFrames (first n : Nat) : List Frame :=
  (List.range' first (n - first)).flatMap
    (fun i => [.quitThread (i + 1), .joinThread (i + 1)]) ++ [.destroyAcceptor]

theorem memberFrames_zero (n : Nat) : memberFrames 0 n =
    (List.range n).flatMap (fun i => [.quitThread (i + 1), .joinThread (i + 1)]) ++
      [.destroyAcceptor] := by
  rw [memberFrames, Nat.sub_zero, List.range_eq_range']

theorem memberFrames_of_lt {first n : Nat} (more : first < n) :
    memberFrames first n =
      .quitThread (first + 1) :: .joinThread (first + 1) :: memberFrames (first + 1) n := by
  have count : n - first = (n - (first + 1)) + 1 := by omega
  rw [memberFrames, count, List.range'_succ]
  rfl

theorem memberFrames_self (n : Nat) : memberFrames n n = [.destroyAcceptor] := by
  rw [memberFrames, Nat.sub_self]
  rfl

/-- All frames of the list belong to the destructor. -/
theorem memberFrames_isDestructor (first n : Nat) :
    (memberFrames first n).filter Frame.isDestructor = memberFrames first n := by
  rw [List.filter_eq_self]
  intro frame member
  rcases List.mem_append.mp member with thread | last
  · obtain ⟨i, _, frames⟩ := List.mem_flatMap.mp thread
    simp only [List.mem_cons, List.not_mem_nil, or_false] at frames
    rcases frames with rfl | rfl <;> rfl
  · rw [List.mem_singleton.mp last]
    rfl

/-- Each thread is joined behind its `quit()`. -/
theorem quitThread_mem_memberFrames {first n : Nat} {l : LoopId} :
    .quitThread l ∈ memberFrames first n ↔ .joinThread l ∈ memberFrames first n := by
  simp [memberFrames, eq_comm]

theorem lt_of_mem_memberFrames {first n : Nat} {l : LoopId}
    (member : .quitThread l ∈ memberFrames first n) : first < l := by
  rcases List.mem_append.mp member with thread | last
  · obtain ⟨i, inside, frames⟩ := List.mem_flatMap.mp thread
    have least := (List.mem_range'_1.mp inside).1
    rcases List.mem_cons.mp frames with same | other
    · cases same
      exact Nat.lt_succ_of_le least
    · exact absurd (List.mem_singleton.mp other) nofun
  · exact absurd (List.mem_singleton.mp last) nofun

/-- The first `n` threads of the pool have ended. -/
def EndedUpTo (w : World) (n : Nat) : Prop :=
  ∀ l, 1 ≤ l → l ≤ n → (w.loops l).destroyed = true

/-- The course of `~TcpServer`, read off its frames. -/
inductive Destruction (w : World) : List Frame → Prop where
  | notBegun (stage : w.stage = (false, false)) : Destruction w []
  | connections (stage : w.stage = (true, false)) : Destruction w [.destroyServer]
  | quitting (first : Nat) (within : first ≤ w.server.ioLoops) (stage : w.stage = (true, false))
      (ended : w.EndedUpTo first) : Destruction w (memberFrames first w.server.ioLoops)
  | joining (first : Nat) (within : first < w.server.ioLoops) (stage : w.stage = (true, false))
      (ended : w.EndedUpTo first) (asked : (w.loops (first + 1)).asked = true) :
      Destruction w (.joinThread (first + 1) :: memberFrames (first + 1) w.server.ioLoops)
  | finished (stage : w.stage = (true, true)) (ended : w.EndedUpTo w.server.ioLoops) :
      Destruction w []

/-- The other actions leave the course where it is. -/
theorem Destruction.next {w : World} {frames : List Frame} (course : w.Destruction frames)
    {a : Action} (guard : w.Enabled a) (other : destroys a = false) :
    (w.next a).Destruction frames := by
  have stage := w.next_stage other
  have loops := w.next_ioLoops a
  have stays : ∀ n, w.EndedUpTo n → (w.next a).EndedUpTo n :=
    fun _ ended l first last => loopDestroyed_next guard (ended l first last)
  cases course with
  | notBegun before => exact .notBegun (stage.trans before)
  | connections before => exact .connections (stage.trans before)
  | quitting first within before ended =>
      rw [← loops] at within ⊢
      exact .quitting first within (stage.trans before) (stays _ ended)
  | joining first within before ended asked =>
      rw [← loops] at within ⊢
      exact .joining first within (stage.trans before) (stays _ ended) (asked_next asked)
  | finished before ended =>
      rw [← loops] at ended
      exact .finished (stage.trans before) (stays _ ended)

/-- `~TcpServer` returns when all threads of the pool have ended. -/
theorem Destruction.endedUpTo {w : World} {frames : List Frame} (course : w.Destruction frames)
    (destroyed : w.server.destroyed = true) : w.EndedUpTo w.server.ioLoops := by
  have notYet : ∀ begun, w.stage ≠ (begun, false) := by
    intro begun same
    have running : w.server.destroyed = false := congrArg Prod.snd same
    rw [destroyed] at running
    cases running
  cases course with
  | finished stage ended => exact ended
  | notBegun stage => exact absurd stage (notYet _)
  | connections stage => exact absurd stage (notYet _)
  | quitting first within stage ended => exact absurd stage (notYet _)
  | joining first within stage ended asked => exact absurd stage (notYet _)

/-- Nothing is destroyed twice. -/
theorem Destruction.of_running {w : World} {frames : List Frame} (course : w.Destruction frames)
    (running : w.server.destroying = false) : frames = [] ∧ w.stage = (false, false) := by
  have begun : ∀ ended, w.stage ≠ (true, ended) := by
    intro ended same
    have destroying : w.server.destroying = true := congrArg Prod.fst same
    rw [running] at destroying
    cases destroying
  cases course with
  | notBegun stage => exact ⟨rfl, stage⟩
  | connections stage => exact absurd stage (begun _)
  | quitting first within stage ended => exact absurd stage (begun _)
  | joining first within stage ended asked => exact absurd stage (begun _)
  | finished stage ended => exact absurd stage (begun _)

theorem destructorFrames_destroyServer (w : World) :
    (w.next .destroyServer).destructorFrames = .destroyServer :: w.destructorFrames := by
  simp only [destructorFrames, next]
  rw [stack_setLoop, if_pos rfl]
  rfl

/-- `~TcpServer` begins with the loop over the connections. -/
theorem destroyServer_course {w : World} (course : w.Destruction w.destructorFrames)
    (guard : w.Enabled .destroyServer) :
    (w.next .destroyServer).Destruction (w.next .destroyServer).destructorFrames := by
  obtain ⟨none, stage⟩ := course.of_running guard.1
  rw [destructorFrames_destroyServer, none]
  exact .connections (congrArg (Prod.mk true) (congrArg Prod.snd stage))

/-- The first frame of a list of members. -/
theorem memberFrames_head {first n : Nat} {frame : Frame} {rest : List Frame} (within : first ≤ n)
    (split : frame :: rest = memberFrames first n) :
    (first < n ∧ frame = .quitThread (first + 1) ∧
        rest = .joinThread (first + 1) :: memberFrames (first + 1) n) ∨
      first = n ∧ frame = .destroyAcceptor ∧ rest = [] := by
  rcases Nat.lt_or_eq_of_le within with more | last
  · rw [memberFrames_of_lt more, List.cons.injEq] at split
    exact .inl ⟨more, split.1, split.2⟩
  · rw [last, memberFrames_self, List.cons.injEq] at split
    exact .inr ⟨last, split.1, split.2⟩

section Member

variable {w : World} {rest : List Frame}

/-- The loop over the connections ends with the frames of the members in its place. -/
theorem member_destroyServer (top : (w.loops 0).stack = .destroyServer :: rest) :
    (w.next .destroyMember).stage = w.stage ∧
      (w.next .destroyMember).destructorFrames =
        memberFrames 0 w.server.ioLoops ++ rest.filter Frame.isDestructor := by
  simp only [next, destroyMember, top, destructorFrames]
  refine ⟨rfl, ?_⟩
  rw [stack_setLoop, if_pos rfl, ← memberFrames_zero]
  simp only [Loop.push, Loop.pop, top, List.tail_cons]
  rw [List.filter_append, memberFrames_isDestructor]

/-- `quit()` of a loop of the pool. -/
theorem member_quitThread {l : LoopId} (top : (w.loops 0).stack = .quitThread l :: rest) :
    (w.next .destroyMember).stage = w.stage ∧
      (w.next .destroyMember).destructorFrames = rest.filter Frame.isDestructor ∧
        (w.next .destroyMember).request l = (true, true) := by
  simp only [next, destroyMember, top, destructorFrames, request]
  refine ⟨rfl, ?_, ?_⟩
  · rw [stack_setLoop_same _ 0 l (by rfl), stack_setLoop, if_pos rfl, Loop.pop, top,
      List.tail_cons]
  · rw [setLoop_loops, Function.update_self]

/-- The end of a `join()`. -/
theorem member_joinThread {l : LoopId} (top : (w.loops 0).stack = .joinThread l :: rest) :
    (w.next .destroyMember).stage = w.stage ∧
      (w.next .destroyMember).destructorFrames = rest.filter Frame.isDestructor := by
  simp only [next, destroyMember, top, destructorFrames]
  refine ⟨rfl, ?_⟩
  rw [stack_setLoop, if_pos rfl, Loop.pop, top, List.tail_cons]

/-- The acceptor is destroyed. -/
theorem member_destroyAcceptor (top : (w.loops 0).stack = .destroyAcceptor :: rest) :
    (w.next .destroyMember).stage = (w.server.destroying, true) ∧
      (w.next .destroyMember).destructorFrames = rest.filter Frame.isDestructor := by
  simp only [next, destroyMember, top, destructorFrames]
  refine ⟨rfl, ?_⟩
  rw [stack_setLoop, if_pos rfl, Loop.pop, top, List.tail_cons]

end Member

/-- The step of the destructor that stands behind its top frame. -/
theorem destroyMember_course {w : World} (course : w.Destruction w.destructorFrames)
    (guard : w.Enabled .destroyMember) :
    (w.next .destroyMember).Destruction (w.next .destroyMember).destructorFrames := by
  have ready : w.MemberReady (w.loops 0).stack := guard
  have loops := w.next_ioLoops .destroyMember
  have stays : ∀ n, w.EndedUpTo n → (w.next .destroyMember).EndedUpTo n :=
    fun _ ended l first last => loopDestroyed_next guard (ended l first last)
  generalize found : w.destructorFrames = frames at course
  unfold destructorFrames at found
  cases top : (w.loops 0).stack with
  | nil =>
      rw [top] at ready
      cases ready
  | cons frame rest =>
      rw [top] at ready found
      cases frame with
      | job job | user held => cases ready
      | destroyServer =>
          change .destroyServer :: rest.filter Frame.isDestructor = frames at found
          obtain ⟨stage', after⟩ := member_destroyServer top
          rw [after]
          cases course with
          | connections stage =>
              rw [(List.cons.inj found).2, List.append_nil, ← loops]
              exact .quitting 0 (Nat.zero_le _) (stage'.trans stage) fun l first last =>
                absurd (Nat.le_trans first last) (by decide)
          | quitting first within stage ended =>
              rcases memberFrames_head within found with ⟨_, other, _⟩ | ⟨_, other, _⟩ <;>
                cases other
          | notBegun stage => cases found
          | joining first within stage ended asked => cases (List.cons.inj found).1
          | finished stage ended => cases found
      | quitThread l =>
          change .quitThread l :: rest.filter Frame.isDestructor = frames at found
          cases course with
          | quitting first within stage ended =>
              rcases memberFrames_head within found with ⟨more, same, left⟩ | ⟨_, other, _⟩
              · cases same
                obtain ⟨stage', after, requested⟩ := member_quitThread top
                rw [after, left, ← loops]
                exact .joining first (loops ▸ more) (stage'.trans stage) (stays _ ended)
                  (congrArg Prod.snd requested)
              · cases other
          | connections stage => cases (List.cons.inj found).1
          | notBegun stage => cases found
          | joining first within stage ended asked => cases (List.cons.inj found).1
          | finished stage ended => cases found
      | joinThread l =>
          change .joinThread l :: rest.filter Frame.isDestructor = frames at found
          have joined : (w.loops l).destroyed = true := ready
          obtain ⟨stage', after⟩ := member_joinThread top
          rw [after]
          cases course with
          | joining first within stage ended asked =>
              obtain ⟨same, left⟩ := List.cons.inj found
              cases same
              rw [left, ← loops]
              refine .quitting (first + 1) (loops ▸ within) (stage'.trans stage) (stays _ ?_)
              intro l least most
              rcases Nat.lt_or_eq_of_le most with before | last
              · exact ended l least (Nat.le_of_lt_succ before)
              · exact last ▸ joined
          | quitting first within stage ended =>
              rcases memberFrames_head within found with ⟨_, other, _⟩ | ⟨_, other, _⟩ <;>
                cases other
          | connections stage => cases (List.cons.inj found).1
          | notBegun stage => cases found
          | finished stage ended => cases found
      | destroyAcceptor =>
          change .destroyAcceptor :: rest.filter Frame.isDestructor = frames at found
          obtain ⟨stage', after⟩ := member_destroyAcceptor top
          rw [after]
          cases course with
          | quitting first within stage ended =>
              rcases memberFrames_head within found with ⟨_, other, _⟩ | ⟨last, _, left⟩
              · cases other
              · have begun : w.server.destroying = true := congrArg Prod.fst stage
                rw [begun] at stage'
                rw [left]
                refine .finished stage' (stays _ ?_)
                rw [loops]
                exact last ▸ ended
          | joining first within stage ended asked => cases (List.cons.inj found).1
          | connections stage => cases (List.cons.inj found).1
          | notBegun stage => cases found
          | finished stage ended => cases found

end World

/-- The destructor keeps to its course in every run. -/
theorem destruction {w : World} (reachable : server.Reachable w) :
    w.Destruction w.destructorFrames := by
  refine reachable.invariant (I := fun w => w.Destruction w.destructorFrames) ?_ ?_
  · rintro w ⟨name, ipPort, callbacks, ioLoops, users, rfl⟩
    exact .notBegun rfl
  · intro w a _ course guard
    change (w.next a).Destruction (w.next a).destructorFrames
    cases destroys : World.destroys a with
    | false =>
        rw [World.destructorFrames_next guard destroys]
        exact course.next guard destroys
    | true =>
        cases a with
        | destroyServer => exact World.destroyServer_course course guard
        | destroyMember => exact World.destroyMember_course course guard
        | _ => cases destroys

/-! ### The threads of the pool -/

namespace World

/-- The loop on whose thread an action takes place. -/
def actor? : Action → Option LoopId
  | .enterLoop l | .poll l _ | .handleEvent l _ | .doPendingFunctors l | .endBatch l
  | .destroyLoop l | .run l _ | .submit l | .userSend l _ _ | .userShutdown l _
  | .userSetHighWaterMarkCallback l _ _ | .userRetrieve l _ _ | .userTake l _ _ | .userGive l _ _
  | .userReturn l => some l
  | .destroyServer | .destroyConnection _ | .destroyMember => some 0
  | .copy _ _ _ | .drop _ _ | .send _ _ _ | .shutdown _ _ | .queueUser _ _ | .queueInLoop _
  | .quit _ => none

theorem actor_isLoop {w : World} {a : Action} (guard : w.Enabled a) {l : LoopId}
    (acts : actor? a = some l) : w.isLoop l := by
  cases a with
  | destroyServer | destroyConnection c | destroyMember =>
      cases acts
      exact Nat.zero_le _
  | copy t other c | drop t c | send t c data | shutdown t c | queueUser t c | queueInLoop t
  | quit l' => cases acts
  | _ =>
      cases acts
      exact guard.1

/-- The thread of a loop that has left `loop()`. -/
structure Left (w : World) (l : LoopId) : Prop where
  phase : (w.loops l).phase = .stopped
  stack : (w.loops l).stack = []

/-- The thread of a loop that has come to its end: a thread of the pool is behind `threadFunc`. -/
structure Ended (w : World) (l : LoopId) : Prop extends w.Left l where
  destroyed : l ≠ 0 → (w.loops l).destroyed = true

variable {w : World} {a : Action} {l : LoopId}

theorem Left.copies (left : w.Left l) : (w.loops l).copies = [] := by
  rw [Loop.copies, left.stack]

theorem Left.inUserCode (left : w.Left l) : (w.loops l).inUserCode = false := by
  rw [Loop.inUserCode, left.stack]

/-- Nothing happens on it but the end of `threadFunc`, or that a base loop's owner destroys the
server. -/
theorem Left.only_destroys (left : w.Left l) (guard : w.Enabled a) (acts : actor? a = some l) :
    a = .destroyServer ∨ a = .destroyLoop l := by
  have phased : ∀ {phase : Phase}, (w.loops l).phase = phase → phase = .stopped :=
    fun same => same.symm.trans left.phase
  have uncalled : ∀ {c}, c ∉ (w.loops l).copies := by
    intro c atHand
    rw [left.copies] at atHand
    cases atHand
  cases a with
  | enterLoop l' | poll l' active | handleEvent l' named | doPendingFunctors l' | endBatch l' =>
      cases acts
      exact absurd (phased guard.2.1) (by decide)
  | destroyLoop l' =>
      cases acts
      exact .inr rfl
  | run l' kernel =>
      cases acts
      obtain ⟨job, loop, fetched, _⟩ := enabled_run guard
      cases Loop.fetched fetched with
      | called _ rest top =>
          rw [left.stack] at top
          cases top
      | functor task rest bottom draining next => exact absurd (phased draining) (by decide)
  | submit l' =>
      cases acts
      obtain ⟨task, submitted⟩ := Option.isSome_iff_exists.mp guard.2
      have top := (submitted_eq submitted).1
      rw [left.stack] at top
      cases top
  | userSend l' c data | userShutdown l' c | userSetHighWaterMarkCallback l' c mark
  | userRetrieve l' c len =>
      cases acts
      exact absurd guard.2 uncalled
  | userTake l' t c =>
      cases acts
      have inUser : (w.loops l).inUserCode = true := guard.2.2.1
      rw [left.inUserCode] at inUser
      cases inUser
  | userGive l' t c =>
      cases acts
      exact absurd guard.2.2 uncalled
  | userReturn l' =>
      cases acts
      have inUser : (w.loops l).inUserCode = true := guard.2
      rw [left.inUserCode] at inUser
      cases inUser
  | destroyServer => exact .inl rfl
  | destroyConnection c =>
      cases acts
      have top := guard.1
      rw [left.stack] at top
      cases top
  | destroyMember =>
      cases acts
      have ready : w.MemberReady (w.loops 0).stack := guard
      rw [left.stack] at ready
      cases ready
  | copy t other c | drop t c | send t c data | shutdown t c | queueUser t c | queueInLoop t
  | quit l' => cases acts

theorem Ended.only_destroys (ended : w.Ended l) (guard : w.Enabled a) (acts : actor? a = some l) :
    a = .destroyServer := by
  rcases ended.toLeft.only_destroys guard acts with begins | rfl
  · exact begins
  · have alive : (w.loops l).destroyed = false := guard.2.2.2
    rw [ended.destroyed guard.2.1] at alive
    cases alive

/-- So a thread of the pool takes no step. -/
theorem Ended.idle (ended : w.Ended l) (pool : l ≠ 0) (guard : w.Enabled a) :
    actor? a ≠ some l := by
  intro acts
  cases ended.only_destroys guard acts
  cases acts
  exact pool rfl

/-- `~TcpServer` touches only the stack of its own thread. -/
theorem destroyMember_stack (w : World) {l : LoopId} (pool : l ≠ 0) :
    ((w.next .destroyMember).loops l).stack = (w.loops l).stack := by
  have elsewhere : ∀ (w : World) (loop : Loop),
      ((w.setLoop 0 loop).loops l).stack = (w.loops l).stack := by
    intro w loop
    rw [stack_setLoop, if_neg pool]
  rw [next, destroyMember]
  split
  · exact elsewhere _ _
  · rename_i l' rest top
    rw [stack_setLoop_same _ l l' (by rfl)]
    exact elsewhere _ _
  · exact elsewhere _ _
  · exact elsewhere _ _
  · rfl

/-- Every thread keeps its own stack. -/
theorem stack_next_of_other (guard : w.Enabled a) (other : actor? a ≠ some l) :
    ((w.next a).loops l).stack = (w.loops l).stack := by
  have change := next_stack guard l
  by_cases member : a = .destroyMember
  · subst member
    exact destroyMember_stack w fun base => other (congrArg some base.symm)
  generalize ((w.next a).loops l).stack = stack at change ⊢
  have mine : ∀ {b : Action}, a = b → actor? b ≠ some l := fun running => running ▸ other
  cases change with
  | same idle => rfl
  | dispatched named c revents running empty active => exact absurd rfl (mine running)
  | ran kernel job loop running fetched => exact absurd rfl (mine running)
  | called task idle pushed =>
      cases pushed with
      | connectEstablished accepting => exact absurd rfl (mine accepting)
      | removeConnectionInLoop kernel c running current => exact absurd rfl (mine running)
      | sendInLoop c data running connected => exact absurd rfl (mine running)
      | shutdownInLoop c running connected => exact absurd rfl (mine running)
      | connectDestroyed c running base here =>
          exact absurd (congrArg some base.symm) (mine running)
  | submitted task rest running top => exact absurd rfl (mine running)
  | returned held rest running top => exact absurd rfl (mine running)
  | took t c held rest running top => exact absurd rfl (mine running)
  | destroying running base => exact absurd (congrArg some base.symm) (mine running)
  | member frame frames rest running top plain others => exact absurd running member

theorem Left.next (left : w.Left l) (pool : l ≠ 0) (guard : w.Enabled a) : (w.next a).Left l where
  phase := stopped_next guard left.phase
  stack := by
    by_cases acts : actor? a = some l
    · rcases left.only_destroys guard acts with rfl | rfl
      · exact absurd (Option.some.inj acts).symm pool
      · rw [next, setLoop_part_same Loop.stack _ _ _ (by rfl)]
        exact left.stack
    · exact (stack_next_of_other guard acts).trans left.stack

/-- The end of `loop()` finds the stack empty. -/
theorem left_next (guard : w.Enabled a) (pool : l ≠ 0)
    (before : (w.loops l).phase = .stopped → w.Left l)
    (stopped : ((w.next a).loops l).phase = .stopped) : (w.next a).Left l := by
  have change := next_phase guard l
  generalize phased : ((w.next a).loops l).phase = phase at change
  cases change with
  | same unpolled => exact (before (phased ▸ stopped)).next pool guard
  | entered running | polled active running | drains running =>
      rw [stopped] at phased
      cases phased
  | ended running =>
      subst running
      refine ⟨stopped, ?_⟩
      rw [next, setLoop_part Loop.stack, if_pos rfl]
      exact guard.2.2.1

theorem destroying_kept (begun : w.server.destroying = true) :
    (w.next a).server.destroying = true := by
  cases kind : destroys a with
  | false => exact (congrArg Prod.fst (w.next_stage kind)).trans begun
  | true =>
      cases a with
      | destroyServer => rfl
      | destroyMember =>
          rw [next, destroyMember]
          split <;> exact begun
      | _ => cases kind

/-- What `~TcpServer` has done stays done. -/
theorem serverDestroyed_kept (destroyed : w.server.destroyed = true) :
    (w.next a).server.destroyed = true := by
  cases kind : destroys a with
  | false => exact (congrArg Prod.snd (w.next_stage kind)).trans destroyed
  | true =>
      cases a with
      | destroyServer => exact destroyed
      | destroyMember =>
          rw [next, destroyMember]
          split
          · exact destroyed
          · exact destroyed
          · exact destroyed
          · rfl
          · exact destroyed
      | _ => cases kind

end World

theorem left {w : World} (reachable : server.Reachable w) {l : LoopId} (pool : l ≠ 0)
    (stopped : (w.loops l).phase = .stopped) : w.Left l := by
  refine reachable.invariant (I := fun w => (w.loops l).phase = .stopped → w.Left l) ?_ ?_ stopped
  · rintro w ⟨name, ipPort, callbacks, ioLoops, users, rfl⟩ stopped
    cases stopped
  · exact fun w a _ before guard stopped => World.left_next guard pool before stopped

theorem ended {w : World} (reachable : server.Reachable w) {l : LoopId} (pool : l ≠ 0)
    (destroyed : (w.loops l).destroyed = true) : w.Ended l :=
  ⟨left reachable pool (((placed reachable).loops l).ended destroyed).2, fun _ => destroyed⟩

/-- Once `~TcpServer` has returned, whatever the rest of the program does, no thread of the pool
takes another step: each has been joined. -/
theorem pool_silent_when_destroyed {w : World} (reachable : server.Reachable w)
    (destroyed : w.server.destroyed = true) {schedule : List Action}
    (admitted : server.Admits w schedule) :
    ∀ a ∈ schedule, World.actor? a = none ∨ World.actor? a = some 0 := by
  induction schedule generalizing w with
  | nil => exact List.forall_mem_nil _
  | cons a rest inductionHypothesis =>
      have guard : w.Enabled a := admitted.1
      have later := inductionHypothesis (reachable.step guard) (World.serverDestroyed_kept destroyed)
        admitted.2
      refine List.forall_mem_cons.mpr ⟨?_, later⟩
      cases acts : World.actor? a with
      | none => exact .inl rfl
      | some l =>
          right
          by_contra pool
          have elsewhere : l ≠ 0 := fun base => pool (congrArg some base)
          have within : l ≤ w.server.ioLoops := World.actor_isLoop guard acts
          have joined := (destruction reachable).endedUpTo destroyed l
            (Nat.one_le_iff_ne_zero.mpr elsewhere) within
          exact (ended reachable elsewhere joined).idle elsewhere guard acts

/-- `~TcpServer` on the base loop, with one connection on the thread that it joins. -/
def demoJoin : List Action :=
  demoOpening ++ [.destroyServer, .destroyConnection 0, .destroyMember, .destroyMember,
    .poll 1 [], .doPendingFunctors 1, .run 1 demoKernel, .userReturn 1, .run 1 demoKernel,
    .endBatch 1, .destroyLoop 1, .destroyMember, .destroyMember]

/-- The base loop goes on, and the user's thread still queues for the connection that it owns. -/
theorem pool_silent_when_destroyed_demo :
    World.actor? (.poll 0 []) = none ∨ World.actor? (.poll 0 []) = some 0 := by
  have admitted : server.Admits (demoServer 1 1) demoJoin := by decide +kernel
  have later : server.Admits (server.exec (demoServer 1 1) demoJoin)
      [.queueUser 0 0, .queueInLoop 0, .doPendingFunctors 0, .endBatch 0, .poll 0 []] := by
    decide +kernel
  exact pool_silent_when_destroyed (admitted.reachable (demoServer_initial 1 1))
    (by decide +kernel) later _ (by decide)

end EduMuduo

/-
Module: EduMuduo.Proofs.StackFlow
Layer: Proofs
Purpose: What one step of the server can do to the call stack of a loop thread, said once
  (`StackChange`): a dispatch fills an empty stack, a job is replaced by the frames it leaves, user
  code calls or returns, and `~TcpServer` moves on.
Imports: EduMuduo.Proofs.Establishment
Trusted boundary: none
Main exports: Frame.job?, World.StackChange, World.next_stack, World.NewFrame,
  World.mem_stack_next, World.TakesUp
-/
import EduMuduo.Proofs.Establishment

namespace EduMuduo

open Library

/-- The library code that a frame stands for. -/
def Frame.job? : Frame → Option Job
  | .job code => some code
  | .user _ | .destroyServer | .quitThread _ | .joinThread _ | .destroyAcceptor => none

/-- A job is fetched from the top of the stack, or it is a functor and the stack is empty. -/
theorem Loop.fetch_stack {loop after : Loop} {job : Job}
    (fetched : loop.fetch = some (job, after)) :
    loop.stack = .job job :: after.stack ∨
      loop.stack = [] ∧ after.stack = [] ∧ ∃ task, job = .task task := by
  cases Loop.fetched fetched with
  | called _ rest top => exact .inl (by simp [pop, top])
  | functor task rest bottom draining next => exact .inr ⟨bottom, bottom, task, rfl⟩

/-- What is left of the stack is what stands below the job. -/
theorem Loop.fetch_tail {loop after : Loop} {job : Job}
    (fetched : loop.fetch = some (job, after)) : after.stack = loop.stack.tail := by
  rcases fetch_stack fetched with top | ⟨bottom, empty, _⟩
  · rw [top, List.tail_cons]
  · rw [bottom, empty, List.tail_nil]

namespace World

/-- The loop on which an action runs a job. -/
def runs? : Action → Option LoopId
  | .run l _ => some l
  | _ => none

theorem ne_run {a : Action} (idle : runs? a = none) {l : LoopId} : ∀ kernel, a ≠ .run l kernel := by
  rintro kernel rfl
  cases idle

/-- Everything that action `a` can make of the call stack of loop `l`. -/
inductive StackChange (w : World) (a : Action) (l : LoopId) : List Frame → Prop where
  | same (idle : ∀ kernel, a ≠ .run l kernel) : StackChange w a l (w.loops l).stack
  | dispatched (named : Bool) (c : ConnId) (revents : EpollEvents)
      (running : a = .handleEvent l named) (empty : (w.loops l).stack = [])
      (active : .channel c revents ∈ (w.loops l).activeChannels) :
      StackChange w a l (w.dispatch c revents)
  | ran (kernel : Kernel) (job : Job) (loop : Loop) (running : a = .run l kernel)
      (fetched : (w.loops l).fetch = some (job, loop)) :
      StackChange w a l ((w.perform l kernel job).frames ++ loop.stack)
  | called (task : Task) (idle : ∀ kernel, a ≠ .run l kernel) (pushed : Pushed w a l task) :
      StackChange w a l (.job (.task task) :: (w.loops l).stack)
  | submitted (task : Task) (rest : List Frame) (running : a = .submit l)
      (top : (w.loops l).stack = .job (.task task) :: rest) : StackChange w a l rest
  | returned (held : List ConnId) (rest : List Frame) (running : a = .userReturn l)
      (top : (w.loops l).stack = .user held :: rest) : StackChange w a l rest
  | took (t : ThreadId) (c : ConnId) (held : List ConnId) (rest : List Frame)
      (running : a = .userTake l t c) (top : (w.loops l).stack = .user held :: rest) :
      StackChange w a l (.user (c :: held) :: rest)
  | destroying (running : a = .destroyServer) (base : l = 0) :
      StackChange w a l (.destroyServer :: (w.loops l).stack)
  | member (frame : Frame) (frames rest : List Frame) (running : a = .destroyMember)
      (top : (w.loops l).stack = frame :: rest) (plain : frame.job? = none ∧ frame.held = [])
      (others : ∀ other ∈ frames, other.job? = none ∧ other.held = []) :
      StackChange w a l (frames ++ rest)

/-! ### The stack after each change to a part -/

theorem stack_setLoop (w : World) (l l' : LoopId) (loop : Loop) :
    ((w.setLoop l' loop).loops l).stack = if l = l' then loop.stack else (w.loops l).stack :=
  setLoop_part Loop.stack w l l' loop

/-- Replacing a loop by one with the same stack. -/
theorem stack_setLoop_same (w : World) (l l' : LoopId) {loop : Loop}
    (same : loop.stack = (w.loops l').stack) :
    ((w.setLoop l' loop).loops l).stack = (w.loops l).stack :=
  setLoop_part_same Loop.stack w l l' same

@[simp] theorem stack_queueInLoop (w : World) (l l' : LoopId) (tasks : List Task) :
    ((w.queueInLoop l' tasks).loops l).stack = (w.loops l).stack :=
  stack_setLoop_same _ _ _ rfl

theorem stack_commit (w : World) (l l' : LoopId) (loop : Loop) (c : ConnId) (outcome : Outcome) :
    ((w.commit l' loop c outcome).loops l).stack =
      if l = l' then outcome.frames ++ loop.stack else (w.loops l).stack := by
  rw [commit, stack_queueInLoop, stack_setLoop]
  rfl

theorem StackChange.of_eq {w : World} {a : Action} {l : LoopId} {stack : List Frame}
    (idle : ∀ kernel, a ≠ .run l kernel) (same : stack = (w.loops l).stack) :
    StackChange w a l stack := same ▸ .same idle

/-- The stack of one loop is replaced, and the others stay. -/
theorem StackChange.setLoop {w : World} {a : Action} {l l' : LoopId} {loop : Loop}
    (idle : l ≠ l' → ∀ kernel, a ≠ .run l kernel)
    (here : l = l' → StackChange w a l loop.stack) :
    StackChange w a l ((w.setLoop l' loop).loops l).stack := by
  rw [stack_setLoop]
  split
  · rename_i same
    exact here same
  · rename_i other
    exact .same (idle other)

/-- The calls of `runInLoop`. -/
theorem StackChange.runInLoop {w w' : World} {a : Action} {l l' ioLoop : LoopId} {task : Task}
    (idle : ∀ kernel, a ≠ .run l kernel) (loops : ∀ l, (w'.loops l).stack = (w.loops l).stack)
    (pushes : ioLoop = l' → l = l' → Pushed w a l task) :
    StackChange w a l ((w'.runInLoop l' ioLoop task).loops l).stack := by
  rw [World.runInLoop]
  split
  · rename_i inline
    rw [stack_setLoop]
    split
    · rename_i here
      subst here
      rw [Loop.push, loops]
      exact .called task idle (pushes inline rfl)
    · exact .of_eq idle (loops l)
  · exact .of_eq idle ((stack_queueInLoop _ _ _ _).trans (loops l))

/-- A loop that holds the same copies changes no ownership. -/
theorem owned_setLoop_same (w : World) {l : LoopId} {loop : Loop}
    (same : loop.held = (w.loops l).held) (c : ConnId) :
    (w.setLoop l loop).owned c = w.owned c := by
  have held : ∀ l', (((w.setLoop l loop).loops l').held) = (w.loops l').held :=
    fun l' => setLoop_part_same Loop.held w l' l same
  simp only [owned, held]
  rfl

theorem dispatch_setLoop (w : World) (l : LoopId) (loop : Loop) (c : ConnId)
    (revents : EpollEvents) (same : loop.held = (w.loops l).held) :
    (w.setLoop l loop).dispatch c revents = w.dispatch c revents := by
  simp only [dispatch, owned_setLoop_same w same]
  rfl

/-- The frames of the later steps of `~TcpServer` stand for no job and hold nothing. -/
theorem memberFrames_plain (n : Nat) :
    ∀ frame ∈ (List.range n).flatMap (fun i => [Frame.quitThread (i + 1), .joinThread (i + 1)]) ++
      [Frame.destroyAcceptor], frame.job? = none ∧ frame.held = [] := by
  intro frame member
  rcases mem_memberFrames member with ⟨l, rfl⟩ | ⟨l, rfl⟩ | rfl <;> exact ⟨rfl, rfl⟩

/-- The frames that a job of connection `c` can leave. -/
inductive Leaves (c : ConnId) : Frame → Prop where
  | user : Leaves c (.user [c])
  | removeChannel : Leaves c (.job (.removeChannel c))
  | closeCallback : Leaves c (.job (.closeCallback c))
  | removeConnectionInLoop : Leaves c (.job (.task (.removeConnectionInLoop c)))

theorem announced_leaves {c : ConnId} {announce : Bool} {rest : List Frame}
    (others : ∀ frame ∈ rest, Leaves c frame) :
    ∀ frame ∈ (if announce then [Frame.user [c]] else []) ++ rest, Leaves c frame := by
  intro frame member
  rcases List.mem_append.mp member with announced | other
  · split at announced
    · exact List.mem_singleton.mp announced ▸ .user
    · exact absurd announced List.not_mem_nil
  · exact others frame other

theorem handleClose_leaves (w : World) (c : ConnId) (conn : TcpConnection) :
    ∀ frame ∈ (w.handleClose c conn).frames, Leaves c frame :=
  announced_leaves fun _ member => List.mem_singleton.mp member ▸ .closeCallback

theorem perform_leaves (w : World) (l : LoopId) (kernel : Kernel) (job : Job) :
    ∀ frame ∈ (w.perform l kernel job).frames, Leaves job.conn frame := by
  have alone : ∀ {c : ConnId}, ∀ frame ∈ [Frame.user [c]], Leaves c frame :=
    fun _ member => List.mem_singleton.mp member ▸ .user
  cases job with
  | task task =>
      cases task with
      | connectEstablished c =>
          simp only [perform, runTask, connectEstablished]
          split
          · exact alone
          · exact List.forall_mem_nil _
      | connectDestroyed c =>
          exact announced_leaves fun _ member => List.mem_singleton.mp member ▸ .removeChannel
      | removeConnectionInLoop c =>
          simp only [perform, runTask, removeConnectionInLoop]
          split <;> exact List.forall_mem_nil _
      | sendInLoop c data caller => exact List.forall_mem_nil _
      | shutdownInLoop c => exact List.forall_mem_nil _
      | writeCompleteCallback c =>
          simp only [perform, runTask, notify]
          split
          · exact alone
          · exact List.forall_mem_nil _
      | highWaterMarkCallback c total =>
          simp only [perform, runTask, notify]
          split
          · exact alone
          · exact List.forall_mem_nil _
      | user c => exact alone
  | callback callback c =>
      cases callback with
      | close => exact w.handleClose_leaves c _
      | error => exact List.forall_mem_nil _
      | read =>
          simp only [perform, runCallback, handleRead]
          split
          · split
            · exact alone
            · exact List.forall_mem_nil _
          · exact w.handleClose_leaves c _
          · exact List.forall_mem_nil _
      | write => exact List.forall_mem_nil _
  | releaseGuard c => exact List.forall_mem_nil _
  | closeCallback c =>
      simp only [perform, closeCallback]
      split
      · exact fun _ member => List.mem_singleton.mp member ▸ .removeConnectionInLoop
      · exact List.forall_mem_nil _
  | removeChannel c => exact List.forall_mem_nil _

/-- What running a job does to the stacks. -/
theorem run_stack {w : World} {l' : LoopId} (kernel : Kernel) {job : Job} {loop : Loop}
    (fetched : (w.loops l').fetch = some (job, loop)) (l : LoopId) :
    ((w.next (.run l' kernel)).loops l).stack =
      if l = l' then (w.perform l' kernel job).frames ++ loop.stack else (w.loops l).stack := by
  simp only [next, fetched]
  exact stack_commit _ _ _ _ _ _

theorem StackChange.handleEvent {w : World} {l' : LoopId} {named : Bool}
    (guard : w.Enabled (.handleEvent l' named)) (l : LoopId) :
    StackChange w (.handleEvent l' named) l ((w.next (.handleEvent l' named)).loops l).stack := by
  have idle : ∀ kernel, Action.handleEvent l' named ≠ .run l kernel := ne_run rfl
  rw [next]
  split
  · exact .same idle
  · rename_i first rest split
    have popped : ∀ l, ((w.setLoop l'
        { w.loops l' with activeChannels := rest }).loops l).stack =
          (w.loops l).stack := fun l => w.stack_setLoop_same l l' rfl
    cases first with
    | acceptor =>
        rw [World.handleEvent]
        split
        · exact .of_eq idle (popped l)
        · cases named with
          | false => exact .of_eq idle (popped l)
          | true =>
              exact .runInLoop idle popped
                fun inline here => .connectEstablished (here ▸ rfl)
    | channel c revents =>
        rw [World.handleEvent, stack_setLoop]
        split
        · rename_i here
          subst here
          have empty : (w.loops l).stack = [] := guard.2.2.1
          have same :=
            w.dispatch_setLoop l { w.loops l with activeChannels := rest } c revents rfl
          rw [Loop.push, popped, empty, List.append_nil]
          change StackChange w _ l (World.dispatch _ c revents)
          rw [same]
          exact .dispatched named c revents rfl empty (by rw [split]; exact List.mem_cons_self)
        · exact .of_eq idle (popped l)

/-- A step of `~TcpServer` is done with. -/
theorem StackChange.popMember {w : World} {frame : Frame} {rest : List Frame}
    (top : (w.loops 0).stack = frame :: rest) (plain : frame.job? = none ∧ frame.held = [])
    (l : LoopId) : StackChange w .destroyMember l ((w.setLoop 0 (w.loops 0).pop).loops l).stack := by
  refine .setLoop (fun _ => ne_run rfl) ?_
  rintro rfl
  rw [Loop.pop, top]
  exact .member frame [] rest rfl top plain (List.forall_mem_nil _)

theorem StackChange.destroyMember (w : World) (l : LoopId) :
    StackChange w .destroyMember l ((w.next .destroyMember).loops l).stack := by
  rw [next, World.destroyMember]
  split
  · rename_i rest top
    refine .setLoop (fun _ => ne_run rfl) ?_
    rintro rfl
    rw [Loop.push, Loop.pop, top]
    exact .member _ _ rest rfl top ⟨rfl, rfl⟩ (memberFrames_plain _)
  · rename_i l' rest top
    rw [stack_setLoop_same _ l l' (by rfl)]
    exact .popMember top ⟨rfl, rfl⟩ l
  · rename_i l' rest top
    exact .popMember top ⟨rfl, rfl⟩ l
  · rename_i rest top
    exact .popMember top ⟨rfl, rfl⟩ l
  · exact .same (ne_run rfl)

theorem next_stack {w : World} {a : Action} (guard : w.Enabled a) (l : LoopId) :
    StackChange w a l ((w.next a).loops l).stack := by
  cases a with
  | run l' kernel =>
      obtain ⟨_, job, current, _⟩ := guard
      rw [next]
      split
      · rename_i found loop fetched
        rw [stack_commit]
        split
        · rename_i here
          subst here
          exact .ran kernel found loop rfl fetched
        · rename_i other
          refine .same ?_
          rintro _ ⟨⟩
          exact other rfl
      · rename_i none
        rw [Option.mem_def, World.current, none] at current
        cases current
  | handleEvent l' named => exact .handleEvent guard l
  | submit l' =>
      rw [next]
      split
      · rename_i task submitted
        obtain ⟨top, _⟩ := submitted_eq submitted
        obtain ⟨rest, stack⟩ := List.head?_eq_some_iff.mp top
        rw [stack_queueInLoop]
        refine .setLoop (fun _ => ne_run rfl) ?_
        rintro rfl
        rw [Loop.pop, stack]
        exact .submitted task rest rfl stack
      · exact .same (ne_run rfl)
  | userSend l' c data =>
      rw [next]
      split
      · rename_i connected
        refine .setLoop (fun _ => ne_run rfl) ?_
        rintro rfl
        exact .called _ (ne_run rfl) (.sendInLoop c data rfl connected)
      · exact .same (ne_run rfl)
  | userShutdown l' c =>
      simp only [next]
      split
      · rename_i connected
        have pushed : l = l' → Pushed w (.userShutdown l' c) l (.shutdownInLoop c) := by
          rintro rfl
          exact .shutdownInLoop c rfl
            (by simpa [TcpConnection.exchangeDisconnecting] using connected)
        rw [stack_setLoop]
        split
        · rename_i here
          subst here
          exact .called _ (ne_run rfl) (pushed rfl)
        · exact .same (ne_run rfl)
      · exact .same (ne_run rfl)
  | userTake l' t c =>
      obtain ⟨held, rest, top⟩ := inUserCode_eq guard.2.2.1
      refine .setLoop (fun _ => ne_run rfl) ?_
      rintro rfl
      rw [Loop.push, Loop.pop, Loop.copies, top]
      exact .took t c held rest rfl top
  | userReturn l' =>
      obtain ⟨held, rest, top⟩ := inUserCode_eq guard.2
      refine .setLoop (fun _ => ne_run rfl) ?_
      rintro rfl
      rw [Loop.pop, top]
      exact .returned held rest rfl top
  | queueInLoop t =>
      rw [next]
      split
      · exact .of_eq (ne_run rfl) (stack_queueInLoop _ _ _ _)
      · exact .same (ne_run rfl)
  | send t c data =>
      rw [next]
      split <;> exact .same (ne_run rfl)
  | shutdown t c =>
      simp only [next]
      split <;> exact .same (ne_run rfl)
  | destroyServer =>
      refine .setLoop (fun _ => ne_run rfl) ?_
      rintro rfl
      exact .destroying rfl rfl
  | destroyConnection c =>
      exact .runInLoop (ne_run rfl) (fun _ => rfl) fun inline here => .connectDestroyed c rfl here inline
  | destroyMember => exact .destroyMember w l
  | enterLoop l' => exact .of_eq (ne_run rfl) (stack_setLoop_same w l l' rfl)
  | poll l' found => exact .of_eq (ne_run rfl) (stack_setLoop_same w l l' rfl)
  | doPendingFunctors l' => exact .of_eq (ne_run rfl) (stack_setLoop_same w l l' rfl)
  | endBatch l' => exact .of_eq (ne_run rfl) (stack_setLoop_same w l l' rfl)
  | destroyLoop l' => exact .of_eq (ne_run rfl) (stack_setLoop_same w l l' rfl)
  | quit l' => exact .of_eq (ne_run rfl) (stack_setLoop_same w l l' rfl)
  | userSetHighWaterMarkCallback l' c mark | userRetrieve l' c len | userGive l' t c
  | copy t other c | drop t c | queueUser t c => exact .same (ne_run rfl)

/-- A frame that action `a` puts on the stack of loop `l`. -/
inductive NewFrame (w : World) (a : Action) (l : LoopId) : Frame → Prop where
  | dispatched (named : Bool) (running : a = .handleEvent l named) (c : ConnId) (frame : Frame)
      (dispatches : Dispatches c frame) : NewFrame w a l frame
  | left (kernel : Kernel) (job : Job) (running : a = .run l kernel)
      (current : w.current l = some job) (frame : Frame)
      (member : frame ∈ (w.perform l kernel job).frames) : NewFrame w a l frame
  | called (task : Task) (idle : ∀ kernel, a ≠ .run l kernel) (pushed : Pushed w a l task) :
      NewFrame w a l (.job (.task task))
  | took (t : ThreadId) (c : ConnId) (running : a = .userTake l t c) (held : List ConnId) :
      NewFrame w a l (.user (c :: held))
  | destroying (running : a = .destroyServer) : NewFrame w a l .destroyServer
  | member (running : a = .destroyMember) (frame : Frame) (plain : frame.job? = none) :
      NewFrame w a l frame

/-- A frame was there before the step, or the step has put it there. -/
theorem mem_stack_next {w : World} {a : Action} (guard : w.Enabled a) {l : LoopId}
    {frame : Frame} (member : frame ∈ ((w.next a).loops l).stack) :
    frame ∈ (w.loops l).stack ∨ NewFrame w a l frame := by
  have change := next_stack guard l
  generalize ((w.next a).loops l).stack = stack at change member
  cases change with
  | same => exact .inl member
  | dispatched named c revents running empty active =>
      exact .inr (.dispatched named running c frame (w.dispatch_frames c revents frame member))
  | ran kernel job loop running fetched =>
      rcases List.mem_append.mp member with new | below
      · have current := current_of_fetch fetched
        exact .inr (.left kernel job running current frame new)
      · rw [Loop.fetch_tail fetched] at below
        exact .inl (List.mem_of_mem_tail below)
  | called task idle pushed =>
      rcases List.mem_cons.mp member with rfl | old
      · exact .inr (.called task idle pushed)
      · exact .inl old
  | submitted task rest running top | returned held rest running top =>
      exact .inl (by rw [top]; exact List.mem_cons_of_mem _ member)
  | took t c held rest running top =>
      rcases List.mem_cons.mp member with rfl | below
      · exact .inr (.took t c running held)
      · exact .inl (by rw [top]; exact List.mem_cons_of_mem _ below)
  | destroying running base =>
      rcases List.mem_cons.mp member with rfl | old
      · exact .inr (.destroying running)
      · exact .inl old
  | member first frames rest running top plain others =>
      rcases List.mem_append.mp member with new | below
      · exact .inr (.member running frame (others frame new).1)
      · exact .inl (by rw [top]; exact List.mem_cons_of_mem _ below)

/-- What calls a functor on a stack finds nothing there, or a frame that has no job to run. -/
theorem Pushed.top {w : World} {a : Action} (guard : w.Enabled a) {l : LoopId} {task : Task}
    (idle : ∀ kernel, a ≠ .run l kernel) (pushed : Pushed w a l task) :
    ∀ frame ∈ (w.loops l).stack.head?, frame.job? = none := by
  have inUser : ∀ {c}, c ∈ (w.loops l).copies →
      ∀ frame ∈ (w.loops l).stack.head?, frame.job? = none := by
    intro c atHand frame top
    obtain ⟨held, rest, stack, _⟩ := copies_eq atHand
    rw [stack] at top
    cases top
    rfl
  cases pushed with
  | connectEstablished accepting =>
      subst accepting
      intro frame top
      rw [show (w.loops l).stack = [] from guard.2.2.1] at top
      cases top
  | removeConnectionInLoop kernel c running current => exact absurd running (idle kernel)
  | sendInLoop c data running connected => subst running; exact inUser guard.2
  | shutdownInLoop c running connected => subst running; exact inUser guard.2
  | connectDestroyed c running base here =>
      subst running base
      intro frame top
      rw [guard.1] at top
      cases top
      rfl

/-- So does `~TcpServer`. -/
theorem destroyServer_top {w : World} (guard : w.Enabled .destroyServer) :
    ∀ frame ∈ (w.loops 0).stack.head?, frame.job? = none := by
  intro frame top
  rcases guard.2 with inUser | ⟨_, empty⟩
  · obtain ⟨held, rest, stack⟩ := inUserCode_eq inUser
    rw [stack] at top
    cases top
    rfl
  · rw [empty] at top
    cases top

/-! ### Jobs on the stack -/

/-- The job on top of the stack is taken up: it is run, or handed to the loop on which it
belongs. -/
structure TakesUp (w : World) (a : Action) (l : LoopId) (job : Job) : Prop where
  top : (w.loops l).stack.head? = some (.job job)
  step : (∃ kernel, a = .run l kernel) ∨ a = .submit l

section Stack

variable {w : World} {a : Action} {l : LoopId} {job : Job}

/-- A job stays on the stack until it is taken up. -/
theorem stacked_next (guard : w.Enabled a) (onStack : .job job ∈ (w.loops l).stack)
    (left : ¬ w.TakesUp a l job) : .job job ∈ ((w.next a).loops l).stack := by
  have change := next_stack guard l
  generalize ((w.next a).loops l).stack = stack at change ⊢
  cases change with
  | same idle => exact onStack
  | dispatched named c revents running empty active =>
      rw [empty] at onStack
      cases onStack
  | ran kernel current loop running fetched =>
      rcases Loop.fetch_stack fetched with top | ⟨bottom, _⟩
      · rw [top] at onStack
        rcases List.mem_cons.mp onStack with same | below
        · cases same
          exact absurd ⟨by rw [top]; rfl, .inl ⟨kernel, running⟩⟩ left
        · exact List.mem_append_right _ below
      · rw [bottom] at onStack
        cases onStack
  | called task idle pushed => exact List.mem_cons_of_mem _ onStack
  | submitted task rest running top =>
      rw [top] at onStack
      rcases List.mem_cons.mp onStack with same | below
      · cases same
        exact absurd ⟨by rw [top]; rfl, .inr running⟩ left
      · exact below
  | returned held rest running top =>
      rw [top] at onStack
      exact (List.mem_cons.mp onStack).resolve_left fun same => by cases same
  | took t c held rest running top =>
      rw [top] at onStack
      have below := (List.mem_cons.mp onStack).resolve_left fun same => by cases same
      exact List.mem_cons_of_mem _ below
  | destroying running base => exact List.mem_cons_of_mem _ onStack
  | member frame frames rest running top plain others =>
      rw [top] at onStack
      rcases List.mem_cons.mp onStack with same | below
      · rw [← same] at plain
        cases plain.1
      · exact List.mem_append_right _ below

/-- A job that is to be run on this loop is not handed on. -/
theorem TakesUp.runs (guard : w.Enabled a) (takes : w.TakesUp a l job) (here : w.RunsHere l job) :
    (∃ kernel, a = .run l kernel) ∧ w.current l = some job := by
  obtain ⟨rest, top⟩ := List.head?_eq_some_iff.mp takes.top
  constructor
  · rcases takes.step with runs | rfl
    · exact runs
    · obtain ⟨task, found⟩ := Option.isSome_iff_exists.mp guard.2
      obtain ⟨onTop, elsewhere⟩ := submitted_eq found
      rw [top] at onTop
      cases onTop
      exact absurd here elsewhere
  · rw [current, Loop.fetch, top]
    rfl

end Stack

end World

end EduMuduo

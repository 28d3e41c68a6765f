/-
Module: EduMuduo.Proofs.LoopMeasure
Layer: Proofs
Purpose: How far the thread of a loop is from a goal.  What it has still to do is measured by a rank
  of the loop that falls with the parts of `loop()`, by the events and functors of the current
  iteration, and by the weight of its stack; each step of its own makes this smaller, and no other
  thread can make it larger.  Only user code can, by the calls it makes: what counts is therefore
  what waits below it, and that it returns.
Imports: EduMuduo.Proofs.CallbackNesting, EduMuduo.Proofs.Progress,
  EduMuduo.Proofs.RemovedChannels, Mathlib.Data.Prod.Lex
Trusted boundary: none
Main exports: World.Sound, World.Falls, World.stackWeight, World.remaining, World.below,
  World.remaining_next_of_call, World.ahead, World.ahead_next
-/
import EduMuduo.Proofs.CallbackNesting
import EduMuduo.Proofs.Progress
import EduMuduo.Proofs.RemovedChannels
import Mathlib.Data.Prod.Lex

namespace EduMuduo

open Library

/-! ### Weights -/

/-- One more than the weight of the frames that the job can leave. -/
def Job.weight : Job → Nat
  | .callback _ _ => 4
  | .task (.connectDestroyed _) => 3
  | .task (.connectEstablished _) | .task (.writeCompleteCallback _)
  | .task (.highWaterMarkCallback _ _) | .task (.user _) | .closeCallback _ => 2
  | .task (.removeConnectionInLoop _) | .task (.sendInLoop _ _ _) | .task (.shutdownInLoop _)
  | .releaseGuard _ | .removeChannel _ => 1

/-- The loop of `~TcpServer` can leave a `connectDestroyed` for each of its connections, and the
frames of the later members. -/
def Frame.weight (server : TcpServer) : Frame → Nat
  | .job code => code.weight
  | .user _ | .quitThread _ | .joinThread _ | .destroyAcceptor => 1
  | .destroyServer => 4 * server.connections.length + 2 * server.ioLoops + 2

theorem Job.weight_pos (job : Job) : 0 < job.weight := by
  cases job with
  | task functor => cases functor <;> exact Nat.succ_pos _
  | _ => exact Nat.succ_pos _

namespace World

/-- The weight of some frames. -/
def weight (server : TcpServer) : List Frame → Nat
  | [] => 0
  | frame :: rest => frame.weight server + weight server rest

@[simp] theorem weight_nil (server : TcpServer) : weight server [] = 0 := rfl

@[simp] theorem weight_cons (server : TcpServer) (frame : Frame) (rest : List Frame) :
    weight server (frame :: rest) = frame.weight server + weight server rest := rfl

@[simp] theorem weight_append (server : TcpServer) (frames rest : List Frame) :
    weight server (frames ++ rest) = weight server frames + weight server rest := by
  induction frames with
  | nil => exact (Nat.zero_add _).symm
  | cons frame frames inductionHypothesis =>
      rw [List.cons_append, weight_cons, weight_cons, inductionHypothesis, Nat.add_assoc]

/-- Fewer connections weigh less. -/
theorem weight_mono {server server' : TcpServer} (loops : server'.ioLoops = server.ioLoops)
    (fewer : server'.connections.length ≤ server.connections.length) (frames : List Frame) :
    weight server' frames ≤ weight server frames := by
  induction frames with
  | nil => exact Nat.le_refl _
  | cons frame rest inductionHypothesis =>
      have first : frame.weight server' ≤ frame.weight server := by
        cases frame with
        | destroyServer =>
            simp only [Frame.weight, loops]
            omega
        | _ => exact Nat.le_refl _
      exact Nat.add_le_add first inductionHypothesis

/-- Without the loop of `~TcpServer` the connections do not matter. -/
theorem weight_congr {server server' : TcpServer} {frames : List Frame}
    (others : .destroyServer ∉ frames) : weight server' frames = weight server frames := by
  induction frames with
  | nil => rfl
  | cons frame rest inductionHypothesis =>
      have first : Frame.destroyServer ≠ frame := List.ne_of_not_mem_cons others
      have later : .destroyServer ∉ rest := List.not_mem_of_not_mem_cons others
      have same : frame.weight server' = frame.weight server := by
        cases frame with
        | destroyServer => exact absurd rfl first
        | _ => rfl
      exact congrArg₂ (· + ·) same (inductionHypothesis later)

/-- The callback of the user and what comes behind it. -/
theorem announced_weight (server : TcpServer) (c : ConnId) (announce : Bool) (rest : List Frame) :
    weight server ((if announce then [.user [c]] else []) ++ rest) ≤ 1 + weight server rest := by
  rw [weight_append]
  apply Nat.add_le_add_right
  cases announce with
  | false => exact Nat.zero_le _
  | true => exact Nat.le_refl _

theorem handleClose_weight (w : World) (server : TcpServer) (c : ConnId) (conn : TcpConnection) :
    weight server (w.handleClose c conn).frames ≤ 3 := announced_weight server c _ _

/-- What a job leaves on the stack weighs less than the job. -/
theorem perform_weight (w : World) (server : TcpServer) (l : LoopId) (kernel : Kernel)
    (job : Job) : weight server (w.perform l kernel job).frames < job.weight := by
  have optional : ∀ (c : ConnId) (announce : Bool),
      weight server (if announce then [.user [c]] else []) < 2 := by
    intro c announce
    cases announce with
    | false => exact Nat.succ_pos _
    | true => exact Nat.lt_succ_self _
  cases job with
  | task functor =>
      cases functor with
      | connectEstablished c => exact optional c _
      | connectDestroyed c => exact Nat.lt_succ_of_le (announced_weight server c _ _)
      | removeConnectionInLoop c =>
          simp only [perform, runTask, removeConnectionInLoop]
          split <;> exact Nat.succ_pos _
      | sendInLoop c data caller => exact Nat.succ_pos _
      | shutdownInLoop c => exact Nat.succ_pos _
      | writeCompleteCallback c => exact optional c _
      | highWaterMarkCallback c total => exact optional c _
      | user c => exact Nat.lt_succ_self _
  | callback callback c =>
      cases callback with
      | close => exact Nat.lt_succ_of_le (w.handleClose_weight server c _)
      | error => exact Nat.succ_pos _
      | read =>
          simp only [perform, runCallback, handleRead]
          split
          · split
            · exact Nat.le_add_left 2 2
            · exact Nat.succ_pos _
          · exact Nat.lt_succ_of_le (w.handleClose_weight server c _)
          · exact Nat.succ_pos _
      | write => exact Nat.succ_pos _
  | releaseGuard c => exact Nat.succ_pos _
  | closeCallback c =>
      simp only [perform, closeCallback]
      split
      · exact Nat.lt_succ_self _
      · exact Nat.succ_pos _
  | removeChannel c => exact Nat.succ_pos _

/-! ### What other threads leave alone -/

theorem goesOn_of_turns {a : Action} {l : LoopId} (turns : turns? a = some l) :
    goesOn? a = some l := by
  cases a with
  | enterLoop l' | poll l' active | handleEvent l' named | doPendingFunctors l' | endBatch l'
  | destroyLoop l' => exact turns
  | _ => cases turns

/-- What is known of a reachable world. -/
structure Sound (w : World) : Prop where
  placed : w.Placed
  inTurn : ∀ l, (w.loops l).InTurn
  acceptor : ∀ l, .acceptor ∈ (w.loops l).activeChannels → l = 0
  destruction : w.Destruction w.destructorFrames
  left : ∀ l, l ≠ 0 → (w.loops l).phase = .stopped → w.Left l

section Others

variable {w : World} {a : Action} {l : LoopId}

/-- The batch that a loop goes through changes only by its own steps. -/
theorem batch_next (placed : w.Placed) (guard : w.Enabled a)
    (drains : a ≠ .doPendingFunctors l)
    (runs : ∀ kernel, a = .run l kernel → (w.loops l).stack ≠ []) :
    ((w.next a).loops l).functors.batch = (w.loops l).functors.batch := by
  have change := next_queue placed guard l
  generalize ((w.next a).loops l).functors = queue at change ⊢
  cases change with
  | intro base queued source appends =>
      cases source with
      | same idle => rfl
      | swapped running done => exact absurd running drains
      | released running => rfl
      | advanced kernel task rest running bottom next => exact absurd bottom (runs kernel running)

/-- The members of the server and of its thread pool belong to the base loop. -/
theorem server_next_of_other (sound : w.Sound) (guard : w.Enabled a) (other : actor? a ≠ some 0) :
    (w.next a).server = w.server ∧ (w.next a).created = w.created := by
  cases a with
  | handleEvent l named =>
      rw [World.next]
      split
      · exact ⟨rfl, rfl⟩
      · rename_i first rest split
        cases first with
        | channel c revents => exact ⟨rfl, rfl⟩
        | acceptor =>
            have active : .acceptor ∈ (w.loops l).activeChannels := by
              rw [split]
              exact List.mem_cons_self
            exact absurd (congrArg some (sound.acceptor l active)) other
  | run l kernel =>
      obtain ⟨job, loop, fetched, current, here, _⟩ := enabled_run guard
      have change := w.perform_connections l kernel job
      have server : (w.next (.run l kernel)).server =
          { w.server with connections := (w.perform l kernel job).connections } := by
        simp only [World.next, fetched]
        rfl
      refine ⟨server.trans ?_, by simp only [World.next, fetched]; rfl⟩
      generalize (w.perform l kernel job).connections = connections at change
      cases change with
      | same job absent => rfl
      | erased c stored => exact absurd (congrArg some (Eq.symm here)) other
  | submit l | userSend l c data | queueInLoop t | send t c data =>
      rw [World.next]
      split <;> exact ⟨rfl, rfl⟩
  | userShutdown l c | shutdown t c =>
      simp only [World.next]
      split <;> exact ⟨rfl, rfl⟩
  | destroyServer | destroyConnection c | destroyMember => exact absurd rfl other
  | enterLoop l | poll l active | doPendingFunctors l | endBatch l | destroyLoop l
  | userSetHighWaterMarkCallback l c mark | userRetrieve l c len | userTake l t c | userGive l t c
  | userReturn l | copy t other c | drop t c | queueUser t c | quit l => exact ⟨rfl, rfl⟩

/-- `~TcpServer` runs on the base loop. -/
theorem destroyServer_base (placed : w.Placed) (pool : l ≠ 0) :
    .destroyServer ∉ (w.loops l).stack :=
  fun member => pool ((placed.loops l).stack _ member)

/-- The weight of the stack of loop `l`. -/
def stackWeight (w : World) (l : LoopId) : Nat := weight w.server (w.loops l).stack

/-- The events and functors that are left of this iteration. -/
def turnLength (w : World) (l : LoopId) : Nat :=
  (w.loops l).activeChannels.length + (w.loops l).functors.batch.length

end Others

end World

namespace World

/-- A rank of loops that a step does not raise, and that falls with each part of `loop()` which
comes to its end. -/
structure Falls (rank : Loop → Nat) (w : World) (a : Action) (l : LoopId) : Prop where
  least : rank ((w.next a).loops l) ≤ rank (w.loops l)
  turned : turns? a = some l → (∀ named, a ≠ .handleEvent l named) →
    rank ((w.next a).loops l) < rank (w.loops l)

/-- What the thread of loop `l` has still to do: first the parts of `loop()`, then the events and
functors of this one, at last the calls on the stack. -/
def remaining (rank : Loop → Nat) (w : World) (l : LoopId) : Nat ×ₗ Nat ×ₗ Nat :=
  toLex (rank (w.loops l), toLex (w.turnLength l, w.stackWeight l))

section Remaining

variable {rank : Loop → Nat} {w : World} {a : Action} {l : LoopId}

theorem remaining_of_rank (less : rank ((w.next a).loops l) < rank (w.loops l)) :
    (w.next a).remaining rank l < w.remaining rank l :=
  Prod.Lex.toLex_lt_toLex.mpr (.inl less)

theorem remaining_of_turn (falls : Falls rank w a l)
    (less : (w.next a).turnLength l < w.turnLength l) :
    (w.next a).remaining rank l < w.remaining rank l :=
  Prod.Lex.toLex_lt_toLex'.mpr ⟨falls.least, fun _ => Prod.Lex.toLex_lt_toLex.mpr (.inl less)⟩

theorem remaining_of_stack (falls : Falls rank w a l)
    (turn : (w.next a).turnLength l = w.turnLength l)
    (less : (w.next a).stackWeight l < w.stackWeight l) :
    (w.next a).remaining rank l < w.remaining rank l :=
  Prod.Lex.toLex_lt_toLex'.mpr
    ⟨falls.least, fun _ => Prod.Lex.toLex_lt_toLex.mpr (.inr ⟨turn, less⟩)⟩

theorem remaining_of_same (falls : Falls rank w a l)
    (turn : (w.next a).turnLength l = w.turnLength l)
    (weigh : (w.next a).stackWeight l = w.stackWeight l) :
    (w.next a).remaining rank l ≤ w.remaining rank l :=
  Prod.Lex.toLex_le_toLex'.mpr
    ⟨falls.least, fun _ => Prod.Lex.toLex_le_toLex.mpr (.inr ⟨turn, Nat.le_of_eq weigh⟩)⟩

/-- Steps that are no steps of `loop()` and fetch no functor leave the iteration as it is. -/
theorem turnLength_next (placed : w.Placed) (guard : w.Enabled a) (turns : turns? a ≠ some l)
    (runs : ∀ kernel, a = .run l kernel → (w.loops l).stack ≠ []) :
    (w.next a).turnLength l = w.turnLength l := by
  have drains : a ≠ .doPendingFunctors l := by
    rintro rfl
    exact turns rfl
  rw [turnLength, turnLength, part_next Loop.steady_active guard turns,
    batch_next placed guard drains runs]

theorem weight_next_of_other (sound : w.Sound) (guard : w.Enabled a) (other : actor? a ≠ some l)
    {frames : List Frame} (suffix : frames <:+ (w.loops l).stack) :
    weight (w.next a).server frames = weight w.server frames := by
  by_cases base : l = 0
  · subst base
    rw [(server_next_of_other sound guard other).1]
  · exact weight_congr fun onStack =>
      destroyServer_base sound.placed base (suffix.subset onStack)

/-- Another thread leaves alone the iteration that this one is in. -/
theorem turnLength_next_of_other (sound : w.Sound) (guard : w.Enabled a)
    (other : actor? a ≠ some l) : (w.next a).turnLength l = w.turnLength l := by
  apply turnLength_next sound.placed guard
  · exact fun turns => other (actor_of_goesOn (goesOn_of_turns turns))
  · rintro kernel rfl
    exact absurd rfl other

/-- Another thread does not give this one more to do. -/
theorem remaining_next_of_other (sound : w.Sound) (guard : w.Enabled a) (falls : Falls rank w a l)
    (other : actor? a ≠ some l) : (w.next a).remaining rank l ≤ w.remaining rank l := by
  apply remaining_of_same falls (turnLength_next_of_other sound guard other)
  rw [stackWeight, stackWeight, stack_next_of_other guard other]
  exact weight_next_of_other sound guard other List.suffix_rfl

/-! ### A thread's own steps -/

/-- The top frame is replaced by lighter ones. -/
theorem stackWeight_replaced {frame : Frame} {rest : List Frame} (frames : List Frame)
    (before : (w.loops l).stack = frame :: rest)
    (after : ((w.next a).loops l).stack = frames ++ rest)
    (fewer : (w.next a).server.connections.length ≤ w.server.connections.length)
    (less : weight (w.next a).server frames < frame.weight w.server) :
    (w.next a).stackWeight l < w.stackWeight l := by
  have below := weight_mono (w.next_ioLoops a) fewer rest
  rw [stackWeight, stackWeight, before, after, weight_append, weight_cons]
  exact Nat.add_lt_add_of_lt_of_le less below

theorem erase_length_le (map : ConnectionMap) (name : String) :
    (map.erase name).length ≤ map.length := List.length_filter_le _ _

theorem run_connections_length {kernel : Kernel} {job : Job} {loop : Loop}
    (fetched : (w.loops l).fetch = some (job, loop)) :
    (w.next (.run l kernel)).server.connections.length ≤ w.server.connections.length := by
  have change := w.perform_connections l kernel job
  simp only [World.next, fetched]
  change (w.perform l kernel job).connections.length ≤ _
  generalize (w.perform l kernel job).connections = connections at change ⊢
  cases change with
  | same job absent => exact Nat.le_refl _
  | erased c stored => exact erase_length_le _ _

/-- A job on the stack is replaced by what it leaves. -/
theorem run_stackWeight {kernel : Kernel} (guard : w.Enabled (.run l kernel))
    (called : (w.loops l).stack ≠ []) :
    (w.next (.run l kernel)).stackWeight l < w.stackWeight l := by
  obtain ⟨job, loop, fetched, _⟩ := enabled_run guard
  rcases Loop.fetch_stack fetched with top | ⟨bottom, _⟩
  · refine stackWeight_replaced _ top ?_ (run_connections_length fetched)
      (w.perform_weight _ l kernel job)
    rw [run_stack kernel fetched, if_pos rfl]
  · exact absurd bottom called

theorem submit_stackWeight (guard : w.Enabled (.submit l)) :
    (w.next (.submit l)).stackWeight l < w.stackWeight l := by
  obtain ⟨task, found⟩ := Option.isSome_iff_exists.mp guard.2
  obtain ⟨rest, top⟩ := List.head?_eq_some_iff.mp (submitted_eq found).1
  have popped : w.next (.submit l) =
      (w.setLoop l (w.loops l).pop).queueInLoop (w.target task) [task] := by
    simp only [World.next, found]
  refine stackWeight_replaced [] top ?_ ?_ (Job.weight_pos _)
  · rw [popped, stack_queueInLoop, stack_setLoop, if_pos rfl, Loop.pop, top]
    rfl
  · rw [popped]
    exact Nat.le_refl _

theorem userReturn_stackWeight (guard : w.Enabled (.userReturn l)) :
    (w.next (.userReturn l)).stackWeight l < w.stackWeight l := by
  obtain ⟨held, rest, top⟩ := inUserCode_eq guard.2
  refine stackWeight_replaced [] top ?_ (Nat.le_refl _) Nat.one_pos
  rw [World.next, stack_setLoop, if_pos rfl, Loop.pop, top]
  rfl

/-- A connection of `~TcpServer` weighs more than its `connectDestroyed`. -/
theorem destroyConnection_stackWeight {c : ConnId} (guard : w.Enabled (.destroyConnection c)) :
    (w.next (.destroyConnection c)).stackWeight 0 < w.stackWeight 0 := by
  obtain ⟨rest, top⟩ := List.head?_eq_some_iff.mp guard.1
  have map : (w.next (.destroyConnection c)).server.connections =
      w.server.connections.erase (w.conns c).conn.name :=
    congrArg Registry.connections (runInLoop_registry _ _ _ _)
  have fewer : (w.server.connections.erase (w.conns c).conn.name).length <
      w.server.connections.length := by
    apply List.length_filter_lt_length_iff_exists.mpr
    exact ⟨_, guard.2, by simp⟩
  have loops := w.next_ioLoops (.destroyConnection c)
  have stack : ∃ frames, ((w.next (.destroyConnection c)).loops 0).stack = frames ++ rest ∧
      weight (w.next (.destroyConnection c)).server frames ≤
        3 + Frame.destroyServer.weight (w.next (.destroyConnection c)).server := by
    rw [World.next, World.runInLoop]
    split
    · refine ⟨[.job (.task (.connectDestroyed c)), .destroyServer], ?_, Nat.le_refl _⟩
      rw [stack_setLoop, if_pos rfl, Loop.push]
      exact congrArg (_ :: ·) top
    · refine ⟨[.destroyServer], ?_, Nat.le_add_left _ _⟩
      rw [stack_queueInLoop]
      exact top
  obtain ⟨frames, after, most⟩ := stack
  refine stackWeight_replaced _ top after (map ▸ Nat.le_of_lt fewer) (Nat.lt_of_le_of_lt most ?_)
  simp only [Frame.weight, map, loops]
  omega

/-- Two frames for each thread, and one for the acceptor. -/
theorem memberFrames_weight (server : TcpServer) (n : Nat) :
    weight server ((List.range n).flatMap
      (fun i => [.quitThread (i + 1), .joinThread (i + 1)]) ++ [.destroyAcceptor]) =
        2 * n + 1 := by
  rw [weight_append]
  refine congrArg (· + 1) (?_ : weight server (List.flatMap _ (List.range n)) = 2 * n)
  induction n with
  | zero => rfl
  | succ n inductionHypothesis =>
      rw [List.range_succ, List.flatMap_append, weight_append, inductionHypothesis]
      simp only [List.flatMap_cons, List.flatMap_nil, List.append_nil, weight_cons, weight_nil,
        Frame.weight]
      omega

theorem destroyMember_stackWeight (guard : w.Enabled .destroyMember) :
    (w.next .destroyMember).stackWeight 0 < w.stackWeight 0 := by
  have ready : w.MemberReady (w.loops 0).stack := guard
  cases top : (w.loops 0).stack with
  | nil =>
      rw [top] at ready
      cases ready
  | cons frame rest =>
      rw [top] at ready
      have popped : ∀ (w' : World) (loop : Loop), loop.stack = rest →
          ((w'.setLoop 0 loop).loops 0).stack = [] ++ rest := by
        intro w' loop same
        rw [stack_setLoop, if_pos rfl, same]
        rfl
      have below : (w.loops 0).pop.stack = rest := by
        rw [Loop.pop, top]
        rfl
      cases frame with
      | job job | user held => cases ready
      | destroyServer =>
          have after : ((w.next .destroyMember).loops 0).stack =
              ((List.range w.server.ioLoops).flatMap
                (fun i => [.quitThread (i + 1), .joinThread (i + 1)]) ++ [.destroyAcceptor]) ++
                rest := by
            simp only [World.next, World.destroyMember, top]
            rw [stack_setLoop, if_pos rfl, Loop.push, below]
          refine stackWeight_replaced _ top after ?_ ?_
          · simp only [World.next, World.destroyMember, top]
            exact Nat.le_refl _
          · rw [memberFrames_weight]
            simp only [Frame.weight]
            omega
      | quitThread l' =>
          refine stackWeight_replaced [] top ?_ ?_ Nat.one_pos
          · simp only [World.next, World.destroyMember, top]
            rw [stack_setLoop_same _ 0 l' (by rfl)]
            exact popped _ _ below
          · simp only [World.next, World.destroyMember, top]
            exact Nat.le_refl _
      | joinThread l' | destroyAcceptor =>
          refine stackWeight_replaced [] top ?_ ?_ Nat.one_pos
          · simp only [World.next, World.destroyMember, top]
            exact popped _ _ below
          · simp only [World.next, World.destroyMember, top]
            exact Nat.le_refl _

/-- A call of the library, or the return of user code, that is no step of `loop()`. -/
theorem goesOn_stackWeight (guard : w.Enabled a) (goesOn : goesOn? a = some l)
    (turns : turns? a ≠ some l) (called : ∀ kernel, a = .run l kernel → (w.loops l).stack ≠ []) :
    (w.next a).stackWeight l < w.stackWeight l := by
  cases a with
  | enterLoop l' | poll l' active | handleEvent l' named | doPendingFunctors l' | endBatch l'
  | destroyLoop l' =>
      exact absurd goesOn turns
  | run l' kernel =>
      cases goesOn
      exact run_stackWeight guard (called kernel rfl)
  | submit l' =>
      cases goesOn
      exact submit_stackWeight guard
  | userReturn l' =>
      cases goesOn
      exact userReturn_stackWeight guard
  | destroyConnection c =>
      cases goesOn
      exact destroyConnection_stackWeight guard
  | destroyMember =>
      cases goesOn
      exact destroyMember_stackWeight guard
  | _ => cases goesOn

/-- Handling an event takes it off the list. -/
theorem handleEvent_turnLength (sound : w.Sound) {named : Bool}
    (guard : w.Enabled (.handleEvent l named)) :
    (w.next (.handleEvent l named)).turnLength l < w.turnLength l := by
  have batch := batch_next (l := l) sound.placed guard (fun same => by cases same)
    (fun _ same => by cases same)
  rw [turnLength, turnLength, batch]
  apply Nat.add_lt_add_right
  cases active : (w.loops l).activeChannels with
  | nil => exact absurd active guard.2.2.2
  | cons first rest =>
      simp only [World.next, active]
      rw [part_handleEvent Loop.steady_active, setLoop_part Loop.activeChannels, if_pos rfl]
      exact Nat.lt_succ_self _

/-- Running a functor takes it off the batch. -/
theorem run_turnLength {kernel : Kernel} (guard : w.Enabled (.run l kernel))
    (bottom : (w.loops l).stack = []) :
    (w.next (.run l kernel)).turnLength l < w.turnLength l := by
  have active := part_next Loop.steady_active guard (l := l) (fun same => by cases same)
  obtain ⟨job, loop, fetched, _⟩ := enabled_run guard
  rw [turnLength, turnLength, active]
  apply Nat.add_lt_add_left
  cases Loop.fetched fetched with
  | called _ rest top =>
      rw [bottom] at top
      cases top
  | functor task rest empty draining next =>
      have after : ((w.next (.run l kernel)).loops l).functors.batch = rest := by
        simp only [World.next, fetched]
        rw [commit, functors_queueInLoop, functors_setLoop, if_pos rfl]
        simp only [BatchQueue.pushAll, Loop.push, BatchQueue.advance, next]
      rw [after, next]
      exact Nat.lt_succ_self _

/-- Every step of its own brings a thread closer to its end. -/
theorem remaining_next (sound : w.Sound) (guard : w.Enabled a) (falls : Falls rank w a l)
    (goesOn : goesOn? a = some l) : (w.next a).remaining rank l < w.remaining rank l := by
  by_cases turns : turns? a = some l
  · cases a with
    | handleEvent l' named =>
        cases turns
        exact remaining_of_turn falls (handleEvent_turnLength sound guard)
    | enterLoop l' | poll l' active | doPendingFunctors l' | endBatch l' | destroyLoop l' =>
        exact remaining_of_rank (falls.turned turns fun _ other => by cases other)
    | _ => cases turns
  · by_cases fetches : ∀ kernel, a = .run l kernel → (w.loops l).stack ≠ []
    · exact remaining_of_stack falls (turnLength_next sound.placed guard turns fetches)
        (goesOn_stackWeight guard goesOn turns fetches)
    · obtain ⟨kernel, functor⟩ := not_forall.mp fetches
      obtain ⟨rfl, called⟩ := Classical.not_imp.mp functor
      exact remaining_of_turn falls (run_turnLength guard (not_not.mp called))

end Remaining

/-! ### Calls of user code -/

/-- The loop on whose thread user code calls a function that has more to do. -/
def callsBack? : Action → Option LoopId
  | .userSend l _ _ | .userShutdown l _ => some l
  | .destroyServer => some 0
  | _ => none

/-- A call of user code is under way on the thread of loop `l`. -/
def inCall (w : World) (l : LoopId) : Bool := (w.loops l).stack.any Frame.isUser

/-- The frames below all user code, the whole stack where there is none. -/
def below : List Frame → List Frame
  | [] => []
  | frame :: rest =>
      if rest.any Frame.isUser then below rest else if frame.isUser then rest else frame :: rest

theorem below_cons {frame : Frame} {rest : List Frame} (calling : rest.any Frame.isUser = true) :
    below (frame :: rest) = below rest := if_pos calling

theorem below_append (frames : List Frame) {rest : List Frame}
    (calling : rest.any Frame.isUser = true) : below (frames ++ rest) = below rest := by
  induction frames with
  | nil => rfl
  | cons frame frames inductionHypothesis =>
      have still : (frames ++ rest).any Frame.isUser = true := by
        rw [List.any_append, calling, Bool.or_true]
      rw [List.cons_append, below_cons still, inductionHypothesis]

theorem below_of_free {frames : List Frame} (free : frames.any Frame.isUser = false) :
    below frames = frames := by
  cases frames with
  | nil => rfl
  | cons frame rest =>
      obtain ⟨first, later⟩ := Bool.or_eq_false_iff.mp free
      rw [below, if_neg (Bool.not_eq_true _ ▸ later), if_neg (Bool.not_eq_true _ ▸ first)]

theorem below_user (held : List ConnId) (rest : List Frame) :
    below (.user held :: rest) = below rest := by
  cases calling : rest.any Frame.isUser with
  | true => exact below_cons calling
  | false =>
      rw [below_of_free calling, below, if_neg (Bool.not_eq_true _ ▸ calling)]
      rfl

theorem below_suffix (frames : List Frame) : below frames <:+ frames := by
  induction frames with
  | nil => exact List.suffix_rfl
  | cons frame rest inductionHypothesis =>
      rw [below]
      split
      · exact inductionHypothesis.trans (List.suffix_cons frame rest)
      · split
        · exact List.suffix_cons frame rest
        · exact List.suffix_rfl

theorem weight_suffix (server : TcpServer) {frames stack : List Frame} (suffix : frames <:+ stack) :
    weight server frames ≤ weight server stack := by
  obtain ⟨front, split⟩ := suffix
  rw [← split, weight_append]
  exact Nat.le_add_left _ _

/-- What the thread of loop `l` has still to do when user code has returned to it. -/
def remainingBelow (rank : Loop → Nat) (w : World) (l : LoopId) : Nat ×ₗ Nat ×ₗ Nat :=
  toLex (rank (w.loops l), toLex (w.turnLength l, weight w.server (below (w.loops l).stack)))

/-- How far the thread of loop `l` is from its end: the destructor can still begin, then what is
left to do below user code, at last a call of user code that has to return. -/
def ahead (rank : Loop → Nat) (w : World) (l : LoopId) : Nat ×ₗ (Nat ×ₗ Nat ×ₗ Nat) ×ₗ Nat :=
  toLex ((!w.server.destroying).toNat, toLex (w.remainingBelow rank l, (w.inCall l).toNat))

section Calls

variable {rank : Loop → Nat} {w : World} {a : Action} {l : LoopId}

theorem stack_of_inCall (calling : w.inCall l = true) : (w.loops l).stack ≠ [] := by
  intro empty
  rw [inCall, empty] at calling
  cases calling

/-- What a thread does beside the steps of the library, it does in user code. -/
theorem silent_top (guard : w.Enabled a) (acts : actor? a = some l) (silent : goesOn? a = none)
    (plain : a ≠ .destroyServer) : ∃ held rest, (w.loops l).stack = .user held :: rest := by
  cases a with
  | userSend l' c data | userShutdown l' c | userSetHighWaterMarkCallback l' c mark
  | userRetrieve l' c len =>
      cases acts
      obtain ⟨held, rest, top, _⟩ := copies_eq guard.2
      exact ⟨held, rest, top⟩
  | userGive l' t c =>
      cases acts
      obtain ⟨held, rest, top, _⟩ := copies_eq guard.2.2
      exact ⟨held, rest, top⟩
  | userTake l' t c =>
      cases acts
      exact inUserCode_eq guard.2.2.1
  | destroyServer => exact absurd rfl plain
  | copy t other c | drop t c | send t c data | shutdown t c | queueUser t c | queueInLoop t
  | quit l' => cases acts
  | _ => cases silent

/-- User code that does not call back leaves its thread where it is. -/
theorem stackWeight_next_silent (guard : w.Enabled a) (acts : actor? a = some l)
    (silent : goesOn? a = none) (plain : callsBack? a ≠ some l) :
    (w.next a).stackWeight l = w.stackWeight l := by
  cases a with
  | userSetHighWaterMarkCallback l' c mark | userRetrieve l' c len | userGive l' t c => rfl
  | userTake l' t c =>
      cases acts
      obtain ⟨held, rest, top⟩ := inUserCode_eq guard.2.2.1
      have after : ((w.next (.userTake l t c)).loops l).stack =
          .user (c :: (w.loops l).copies) :: rest := by
        rw [World.next, stack_setLoop, if_pos rfl, Loop.push, Loop.pop, top]
        rfl
      rw [stackWeight, stackWeight, after, top]
      rfl
  | userSend l' c data | userShutdown l' c | destroyServer => exact absurd acts plain
  | copy t other c | drop t c | send t c data | shutdown t c | queueUser t c | queueInLoop t
  | quit l' => cases acts
  | _ => cases silent

/-- No step of `loop()` is taken with a call on the stack. -/
theorem turns_of_called (sound : w.Sound) (guard : w.Enabled a) (called : (w.loops l).stack ≠ []) :
    turns? a ≠ some l := by
  intro turns
  cases a with
  | poll l' active =>
      cases turns
      exact called ((sound.inTurn l).polling guard.2.1)
  | enterLoop l' =>
      cases turns
      exact called guard.2.2
  | handleEvent l' named | doPendingFunctors l' | endBatch l' =>
      cases turns
      exact called guard.2.2.1
  | destroyLoop l' =>
      cases turns
      exact called (sound.left l guard.2.1 guard.2.2.1).stack
  | _ => cases turns

/-- Then any rank will do that other steps leave alone. -/
theorem falls_of_called (sound : w.Sound) (guard : w.Enabled a) (called : (w.loops l).stack ≠ []) :
    Falls (fun _ => 0) w a l :=
  ⟨Nat.le_refl _, fun turns => absurd turns (turns_of_called sound guard called)⟩

/-- In user code that does not call back a thread comes closer to its end, or is where it was. -/
theorem remaining_next_of_call (sound : w.Sound) (guard : w.Enabled a) (falls : Falls rank w a l)
    (calling : w.inCall l = true) (plain : callsBack? a ≠ some l) :
    (w.next a).remaining rank l < w.remaining rank l ∨
      (w.next a).remaining rank l = w.remaining rank l ∧ goesOn? a ≠ some l := by
  by_cases goesOn : goesOn? a = some l
  · exact .inl (remaining_next sound guard falls goesOn)
  · have least : (w.next a).remaining rank l ≤ w.remaining rank l := by
      by_cases acts : actor? a = some l
      · cases silent : goesOn? a with
        | some l' =>
            cases acts.symm.trans (actor_of_goesOn silent)
            exact absurd silent goesOn
        | none =>
            have called := stack_of_inCall calling
            have turns := turns_of_called sound guard called
            exact remaining_of_same falls
              (turnLength_next sound.placed guard turns fun _ _ => called)
              (stackWeight_next_silent guard acts silent plain)
      · exact remaining_next_of_other sound guard falls acts
    exact least.lt_or_eq.imp_right fun same => ⟨same, goesOn⟩

/-- What user code does leaves alone what waits below it. -/
theorem below_next (guard : w.Enabled a) (acts : actor? a = some l) (calling : w.inCall l = true) :
    below ((w.next a).loops l).stack = below (w.loops l).stack := by
  have change := next_stack guard l
  generalize ((w.next a).loops l).stack = stack at change ⊢
  cases change with
  | same => rfl
  | dispatched named c revents running empty active => exact absurd empty (stack_of_inCall calling)
  | ran kernel job loop running fetched =>
      rcases Loop.fetch_stack fetched with top | ⟨empty, _⟩
      · have later : loop.stack.any Frame.isUser = true := by
          rw [inCall, top] at calling
          exact calling
        rw [top, below_append _ later, below_cons later]
      · exact absurd empty (stack_of_inCall calling)
  | called task idle pushed => exact below_cons calling
  | submitted task rest running top =>
      have later : stack.any Frame.isUser = true := by
        rw [inCall, top] at calling
        exact calling
      rw [top, below_cons later]
  | returned held rest running top => rw [top, below_user]
  | took t c held rest running top => rw [top, below_user, below_user]
  | destroying running base => exact below_cons calling
  | member frame frames rest running top plain others =>
      subst running
      cases acts
      have ready : w.MemberReady (w.loops 0).stack := guard
      have later : rest.any Frame.isUser = true := by
        rw [inCall, top] at calling
        rw [top] at ready
        cases frame with
        | user held => cases ready
        | _ => exact calling
      rw [top, below_append _ later, below_cons later]

/-- On top of user code no connection is made. -/
theorem fewer_next (guard : w.Enabled a) (acts : actor? a = some l)
    (calling : (w.loops l).stack ≠ []) :
    (w.next a).server.connections.length ≤ w.server.connections.length := by
  cases a with
  | handleEvent l' named =>
      cases acts
      exact absurd guard.2.2.1 calling
  | run l' kernel =>
      obtain ⟨job, loop, fetched, _⟩ := enabled_run guard
      exact run_connections_length fetched
  | destroyConnection c =>
      have map : (w.next (.destroyConnection c)).server.connections =
          w.server.connections.erase (w.conns c).conn.name :=
        congrArg Registry.connections (runInLoop_registry _ _ _ _)
      rw [map]
      exact erase_length_le _ _
  | submit l' | userSend l' c data =>
      rw [World.next]
      split <;> exact Nat.le_refl _
  | userShutdown l' c =>
      simp only [World.next]
      split <;> exact Nat.le_refl _
  | destroyMember =>
      rw [World.next, destroyMember]
      split <;> exact Nat.le_refl _
  | copy t other c | drop t c | send t c data | shutdown t c | queueUser t c | queueInLoop t
  | quit l' => cases acts
  | enterLoop l' | poll l' active | doPendingFunctors l' | endBatch l' | destroyLoop l'
  | userSetHighWaterMarkCallback l' c mark | userRetrieve l' c len | userTake l' t c
  | userGive l' t c | userReturn l' | destroyServer => exact Nat.le_refl _

theorem remainingBelow_of_same (falls : Falls rank w a l)
    (turn : (w.next a).turnLength l = w.turnLength l)
    (weigh : weight (w.next a).server (below ((w.next a).loops l).stack) ≤
      weight w.server (below (w.loops l).stack)) :
    (w.next a).remainingBelow rank l ≤ w.remainingBelow rank l :=
  Prod.Lex.toLex_le_toLex'.mpr
    ⟨falls.least, fun _ => Prod.Lex.toLex_le_toLex.mpr (.inr ⟨turn, weigh⟩)⟩

theorem remainingBelow_next_of_call (sound : w.Sound) (guard : w.Enabled a)
    (falls : Falls rank w a l) (acts : actor? a = some l) (calling : w.inCall l = true) :
    (w.next a).remainingBelow rank l ≤ w.remainingBelow rank l := by
  have called := stack_of_inCall calling
  have turns := turns_of_called sound guard called
  apply remainingBelow_of_same falls
  · exact turnLength_next sound.placed guard turns fun _ _ => called
  · rw [below_next guard acts calling]
    exact weight_mono (w.next_ioLoops a) (fewer_next guard acts called) _

theorem remainingBelow_next_of_other (sound : w.Sound) (guard : w.Enabled a)
    (falls : Falls rank w a l) (other : actor? a ≠ some l) :
    (w.next a).remainingBelow rank l ≤ w.remainingBelow rank l := by
  apply remainingBelow_of_same falls (turnLength_next_of_other sound guard other)
  rw [stack_next_of_other guard other]
  exact Nat.le_of_eq (weight_next_of_other sound guard other (below_suffix _))

/-- With no user code about, nothing stands above what waits. -/
theorem remainingBelow_of_free (free : w.inCall l = false) :
    w.remainingBelow rank l = w.remaining rank l := by
  rw [remainingBelow, below_of_free free]
  rfl

theorem remainingBelow_le (rank : Loop → Nat) (w : World) (l : LoopId) :
    w.remainingBelow rank l ≤ w.remaining rank l :=
  Prod.Lex.toLex_le_toLex.mpr (.inr ⟨rfl, Prod.Lex.toLex_le_toLex.mpr
    (.inr ⟨rfl, weight_suffix _ (below_suffix _)⟩)⟩)

/-- The destructor can begin once only. -/
theorem ahead_of_destroying (begins : (w.next a).server.destroying ≠ w.server.destroying) :
    (w.next a).ahead rank l < w.ahead rank l := by
  apply Prod.Lex.toLex_lt_toLex.mpr
  left
  cases before : w.server.destroying with
  | true =>
      rw [before] at begins
      exact absurd (destroying_kept before) begins
  | false =>
      rw [before] at begins
      have begun : (w.next a).server.destroying = true := (Bool.not_eq_false _).mp begins
      rw [begun]
      exact Nat.one_pos

theorem ahead_of_remainingBelow (still : (w.next a).server.destroying = w.server.destroying)
    (less : (w.next a).remainingBelow rank l < w.remainingBelow rank l) :
    (w.next a).ahead rank l < w.ahead rank l :=
  Prod.Lex.toLex_lt_toLex.mpr (.inr ⟨by rw [still], Prod.Lex.toLex_lt_toLex.mpr (.inl less)⟩)

/-- A call of user code has returned, or made what waits for it less, or both are as they were. -/
theorem ahead_of_least (still : (w.next a).server.destroying = w.server.destroying)
    (least : (w.next a).remainingBelow rank l ≤ w.remainingBelow rank l)
    (call : (w.next a).inCall l ≤ w.inCall l) :
    (w.next a).ahead rank l < w.ahead rank l ∨
      (w.next a).ahead rank l = w.ahead rank l ∧ (w.next a).inCall l = w.inCall l := by
  rcases least.lt_or_eq with less | same
  · exact .inl (ahead_of_remainingBelow still less)
  · rcases call.lt_or_eq with returned | going
    · left
      have less : ((w.next a).inCall l).toNat < (w.inCall l).toNat := by
        rw [(Bool.lt_iff.mp returned).1, (Bool.lt_iff.mp returned).2]
        exact Nat.one_pos
      exact Prod.Lex.toLex_lt_toLex.mpr
        (.inr ⟨by rw [still], Prod.Lex.toLex_lt_toLex.mpr (.inr ⟨same, less⟩)⟩)
    · right
      rw [ahead, ahead, still, same, going]
      exact ⟨rfl, rfl⟩

/-- A step of a thread that is in no user code is a step of the library. -/
theorem goesOn_of_free (guard : w.Enabled a) (acts : actor? a = some l)
    (free : w.inCall l = false)
    (still : (w.next a).server.destroying = w.server.destroying) : goesOn? a = some l := by
  cases goesOn : goesOn? a with
  | some l' => exact (actor_of_goesOn goesOn).symm.trans acts
  | none =>
      have plain : a ≠ .destroyServer := by
        rintro rfl
        have before : w.server.destroying = false := guard.1
        rw [before] at still
        cases still
      obtain ⟨held, rest, top⟩ := silent_top guard acts goesOn plain
      rw [inCall, top] at free
      cases free

/-- The step lemma: the thread comes closer to its end, or the step was one of another thread, or
one of user code. -/
theorem ahead_next (sound : w.Sound) (guard : w.Enabled a) (falls : Falls rank w a l) :
    (w.next a).ahead rank l < w.ahead rank l ∨
      ((w.next a).ahead rank l = w.ahead rank l ∧ (w.next a).inCall l = w.inCall l) ∧
        (w.inCall l = false → goesOn? a ≠ some l) := by
  by_cases still : (w.next a).server.destroying = w.server.destroying
  · by_cases acts : actor? a = some l
    · cases calling : w.inCall l with
      | false =>
          have goesOn := goesOn_of_free guard acts calling still
          left
          apply ahead_of_remainingBelow still
          calc (w.next a).remainingBelow rank l
              ≤ (w.next a).remaining rank l := remainingBelow_le _ _ _
            _ < w.remaining rank l := remaining_next sound guard falls goesOn
            _ = w.remainingBelow rank l := (remainingBelow_of_free calling).symm
      | true =>
          have least := remainingBelow_next_of_call sound guard falls acts calling
          have step := ahead_of_least still least (calling ▸ Bool.le_true _)
          rw [calling] at step
          exact step.imp_right fun same => ⟨same, fun free => by cases free⟩
    · have least := remainingBelow_next_of_other sound guard falls acts
      have call : (w.next a).inCall l = w.inCall l := by
        rw [inCall, inCall, stack_next_of_other guard acts]
      have step := ahead_of_least still least (le_of_eq call)
      exact step.imp_right fun same => ⟨same, fun _ goesOn => acts (actor_of_goesOn goesOn)⟩
  · exact .inl (ahead_of_destroying still)

/-- A thread in `join()` does nothing until the join returns. -/
theorem join_next {l' : LoopId} (guard : w.Enabled a)
    (top : (w.loops 0).stack.head? = some (.joinThread l')) (idle : goesOn? a ≠ some 0) :
    ((w.next a).loops 0).stack = (w.loops 0).stack := by
  apply stack_next_of_other guard
  intro acts
  obtain ⟨rest, waits⟩ := List.head?_eq_some_iff.mp top
  have silent : goesOn? a = none := by
    cases goesOn : goesOn? a with
    | none => rfl
    | some l =>
        cases acts.symm.trans (actor_of_goesOn goesOn)
        exact absurd goesOn idle
  have plain : a ≠ .destroyServer := by
    rintro rfl
    rcases guard.2 with inside | ⟨_, empty⟩
    · rw [Loop.inUserCode, waits] at inside
      cases inside
    · rw [waits] at empty
      cases empty
  obtain ⟨held, others, user⟩ := silent_top guard acts silent plain
  rw [waits] at user
  cases user

end Calls

end World

theorem sound {w : World} (reachable : server.Reachable w) : w.Sound :=
  ⟨placed reachable, inTurn reachable, fun _ active => acceptor_base reachable active,
    destruction reachable, fun _ pool stopped => left reachable pool stopped⟩

end EduMuduo

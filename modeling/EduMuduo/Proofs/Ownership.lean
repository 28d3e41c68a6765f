/-
Module: EduMuduo.Proofs.Ownership
Layer: Proofs
Purpose: The owners of a connection: the entry in `connections_`, the frames of the loop threads, the
  functors in their queues, and the copies and calls of the user's threads.  For each step the
  module says which of them it lets go (`letGo`), and shows that every other owner stays or hands
  its copy on, and that nothing else is an owner behind the step.
Imports: EduMuduo.Proofs.Batches, EduMuduo.Proofs.Range
Trusted boundary: none
Main exports: World.Owner, World.HeldInRange.owned_iff, World.letGo, World.Owner.next,
  World.Owner.next_iff
-/
import EduMuduo.Proofs.Batches
import EduMuduo.Proofs.Range

namespace EduMuduo

open Library

/-- A destroyed loop has no functors. -/
theorem Loop.mem_stored {loop : Loop} {task : Task} :
    task ∈ loop.stored ↔ loop.destroyed = false ∧ task ∈ loop.functors.stored := by
  cases gone : loop.destroyed <;> simp [Loop.stored, gone]

namespace World

/-! ### Owners -/

/-- A `shared_ptr` to the connection. -/
inductive Owner (w : World) (c : ConnId) : Prop where
  | entry (name : String) (member : (name, c) ∈ w.server.connections) : Owner w c
  | frame (l : LoopId) (frame : Frame) (member : frame ∈ (w.loops l).stack)
      (held : c ∈ frame.held) : Owner w c
  | functor (l : LoopId) (task : Task) (member : task ∈ (w.loops l).stored)
      (held : c ∈ task.held) : Owner w c
  | copy (t : ThreadId) (member : c ∈ (w.threads t).copies) : Owner w c
  | call (t : ThreadId) (task : Task) (calling : (w.threads t).calling = some task)
      (held : c ∈ task.held) : Owner w c

theorem Owner.of_loop {w : World} {c : ConnId} {l : LoopId} (held : c ∈ (w.loops l).held) :
    w.Owner c := by
  rcases List.mem_append.mp held with onStack | stored
  · obtain ⟨frame, member, held⟩ := List.mem_flatMap.mp onStack
    exact .frame l frame member held
  · obtain ⟨task, member, held⟩ := List.mem_flatMap.mp stored
    exact .functor l task member held

theorem Owner.of_thread {w : World} {c : ConnId} {t : ThreadId} (held : c ∈ (w.threads t).held) :
    w.Owner c := by
  rcases List.mem_append.mp held with copy | calling
  · exact .copy t copy
  · obtain ⟨task, member, held⟩ := List.mem_flatMap.mp calling
    exact .call t task (Option.mem_toList.mp member) held

/-- What `owned` finds is an owner. -/
theorem Owner.of_owned {w : World} {c : ConnId} (owned : w.owned c = true) : w.Owner c := by
  rw [World.owned, Bool.or_eq_true, Bool.or_eq_true] at owned
  rcases owned with (stored | onLoop) | onThread
  · obtain ⟨⟨name, c'⟩, member, same⟩ := List.any_eq_true.mp stored
    obtain rfl : c' = c := beq_iff_eq.mp same
    exact .entry name member
  · obtain ⟨l, _, held⟩ := List.any_eq_true.mp onLoop
    exact .of_loop (List.contains_iff_mem.mp held)
  · obtain ⟨t, _, held⟩ := List.any_eq_true.mp onThread
    exact .of_thread (List.contains_iff_mem.mp held)

theorem owned_of_loop {w : World} {c : ConnId} {l : LoopId} (inside : w.isLoop l)
    (held : c ∈ (w.loops l).held) : w.owned c = true := by
  rw [World.owned, Bool.or_eq_true, Bool.or_eq_true]
  refine .inl (.inr (List.any_eq_true.mpr ⟨l, ?_, List.contains_iff_mem.mpr held⟩))
  exact List.mem_range.mpr (Nat.lt_succ_of_le inside)

theorem owned_of_thread {w : World} {c : ConnId} {t : ThreadId} (inside : w.isThread t)
    (held : c ∈ (w.threads t).held) : w.owned c = true := by
  rw [World.owned, Bool.or_eq_true]
  exact .inr (List.any_eq_true.mpr
    ⟨t, List.mem_range.mpr inside, List.contains_iff_mem.mpr held⟩)

/-- Loops and threads that the server does not have hold nothing. -/
structure HeldInRange (w : World) : Prop where
  loops : ∀ l, ¬ w.isLoop l → (w.loops l).held = []
  threads : ∀ t, ¬ w.isThread t → (w.threads t).held = []

theorem InRange.held {w : World} (inRange : w.InRange) (placed : w.Placed) : w.HeldInRange := by
  refine ⟨fun l outside => ?_, fun t outside => ?_⟩
  · rw [Loop.held, Loop.stored, BatchQueue.stored, inRange.stack l outside,
      inRange.ran l outside, inRange.waiting placed outside, List.append_nil, ite_self]
    rfl
  · rw [inRange.threads t outside]
    rfl

/-- `owned` looks at all owners there are. -/
theorem HeldInRange.owned_iff {w : World} (range : w.HeldInRange) {c : ConnId} :
    w.owned c = true ↔ w.Owner c := by
  have onLoop {l : LoopId} (held : c ∈ (w.loops l).held) : w.owned c = true := by
    refine owned_of_loop ?_ held
    by_contra outside
    rw [range.loops l outside] at held
    exact absurd held List.not_mem_nil
  have onThread {t : ThreadId} (held : c ∈ (w.threads t).held) : w.owned c = true := by
    refine owned_of_thread ?_ held
    by_contra outside
    rw [range.threads t outside] at held
    exact absurd held List.not_mem_nil
  refine ⟨.of_owned, fun owner => ?_⟩
  cases owner with
  | entry name member =>
      rw [World.owned, Bool.or_eq_true, Bool.or_eq_true]
      exact .inl (.inl (List.any_eq_true.mpr ⟨_, member, beq_self_eq_true c⟩))
  | frame l frame member held =>
      exact onLoop (List.mem_append_left _ (List.mem_flatMap.mpr ⟨frame, member, held⟩))
  | functor l task member held =>
      exact onLoop (List.mem_append_right _ (List.mem_flatMap.mpr ⟨task, member, held⟩))
  | copy t member => exact onThread (List.mem_append_left _ member)
  | call t task calling held =>
      exact onThread (List.mem_append_right _
        (List.mem_flatMap.mpr ⟨task, Option.mem_toList.mpr calling, held⟩))

theorem HeldInRange.setLoop {w : World} (range : w.HeldInRange) {l : LoopId}
    (inside : w.isLoop l) (loop : Loop) : (w.setLoop l loop).HeldInRange := by
  refine ⟨fun l' outside => ?_, range.threads⟩
  rw [setLoop_part Loop.held, if_neg]
  · exact range.loops l' outside
  · rintro rfl
    exact outside inside

/-- The loop on which a functor belongs has not been destroyed. -/
def alive (w : World) (task : Task) : Bool := !(w.loops (w.target task)).destroyed

theorem alive_iff {w : World} {task : Task} :
    w.alive task = true ↔ (w.loops (w.target task)).destroyed = false := by
  rw [alive, Bool.not_eq_true']

/-- A functor that waits is an owner by what it has captured, as long as its loop exists. -/
theorem Owner.of_waits {w : World} (placed : w.Placed) {c : ConnId} {task : Task}
    (waits : w.Waits task) (held : c ∈ task.held) (alive : w.alive task = true) : w.Owner c := by
  rcases waits with ⟨l, member⟩ | ⟨t, calling⟩
  · rcases List.mem_append.mp member with called | waiting
    · obtain ⟨frame, onStack, called⟩ := List.mem_filterMap.mp called
      unfold Frame.task? at called
      split at called
      · cases called
        exact .frame l _ onStack held
      all_goals cases called
    · have here : w.target task = l := ((placed.loops l).waiting task waiting).2
      have exists' : (w.loops l).destroyed = false := here ▸ alive_iff.mp alive
      exact .functor l task (Loop.mem_stored.mpr ⟨exists', List.mem_append_right _ waiting⟩) held
  · exact .call t task calling held

/-- What is queued on a loop is an owner, as long as the loop exists. -/
theorem Owner.of_queueInLoop {w : World} {c : ConnId} {l : LoopId} {tasks : List Task}
    {task : Task} (queued : task ∈ tasks) (held : c ∈ task.held)
    (alive : (w.loops l).destroyed = false) : (w.queueInLoop l tasks).Owner c := by
  refine .functor l task (Loop.mem_stored.mpr ⟨?_, ?_⟩) held
  · rwa [queueInLoop, setLoop_part_same Loop.destroyed _ _ _ (by rfl)]
  · rw [functors_queueInLoop, if_pos rfl, BatchQueue.stored_pushAll]
    exact List.mem_append_right _ queued

/-- A world with fewer entries, frames, functors and threads has fewer owners. -/
theorem Owner.mono {w w' : World} {c : ConnId} (owner : w.Owner c)
    (connections : w.server.connections ⊆ w'.server.connections)
    (frames : ∀ l, (w.loops l).stack ⊆ (w'.loops l).stack)
    (stored : ∀ l, (w.loops l).stored ⊆ (w'.loops l).stored)
    (threads : w.threads = w'.threads) : w'.Owner c := by
  cases owner with
  | entry name member => exact .entry name (connections member)
  | frame l frame member held => exact .frame l frame (frames l member) held
  | functor l task member held => exact .functor l task (stored l member) held
  | copy t member => exact .copy t (threads ▸ member)
  | call t task calling held => exact .call t task (threads ▸ calling) held

/-! ### What a step lets go -/

/-- Whether the copy that a function holds goes on to a call, to a callback of the user or to a
functor of a loop that exists when the function is done. -/
def handsOn (w : World) : Job → Bool
  | .task (.connectEstablished c) => (w.conns c).conn.callbacks.connectionCallback
  | .task (.removeConnectionInLoop c) =>
      w.server.connections.contains (w.conns c).conn.name && w.alive (.connectDestroyed c)
  | .task (.connectDestroyed _) | .task (.user _) | .closeCallback _ => true
  | .task (.sendInLoop _ _ _) | .task (.shutdownInLoop _) | .task (.writeCompleteCallback _)
  | .task (.highWaterMarkCallback _ _) | .callback _ _ | .releaseGuard _ | .removeChannel _ =>
      false

/-- The map without what is stored under the name of `c`; the entry of `c` itself stays here,
because its copy goes on to the functor of `connectDestroyed`. -/
def eraseOthers (w : World) (c : ConnId) : World :=
  w.setConnections (w.server.connections.filter fun entry =>
    entry.1 != (w.conns c).conn.name || entry.2 == c)

/-- What a job that hands its copy on erases from the map. -/
def erasing (w : World) (job : Job) : World :=
  match removes? job with
  | some c => w.eraseOthers c
  | none => w

/-- The world without the owners that the action lets go: the functors of a batch that ends or of
a loop that is destroyed, the copies of a user callback that returns, the copy that a thread drops,
the local copy of a function that ends and hands it on to nobody, a functor that is queued for a
destroyed loop, and entries of the map that are erased, but for the one whose copy goes on. -/
def letGo (w : World) : Action → World
  | .endBatch l => w.setLoop l { w.loops l with functors := (w.loops l).functors.release }
  | .destroyLoop l => w.setLoop l { w.loops l with destroyed := true }
  | .userReturn l => w.setLoop l (w.loops l).pop
  | .drop t c => w.setThread t { w.threads t with copies := (w.threads t).copies.erase c }
  | .destroyConnection c =>
      if w.alive (.connectDestroyed c) then w.eraseOthers c
      else w.setConnections (w.server.connections.erase (w.conns c).conn.name)
  | .submit l =>
      match w.submitted l with
      | some task => if w.alive task then w else w.setLoop l (w.loops l).pop
      | none => w
  | .queueInLoop t =>
      match (w.threads t).calling with
      | some task =>
          if w.alive task then w else w.setThread t { w.threads t with calling := none }
      | none => w
  | .run l kernel =>
      match (w.loops l).fetch with
      | some (job, loop) =>
          if w.handsOn job then w.erasing job
          else (w.setConnections (w.perform l kernel job).connections).setLoop l loop
      | none => w
  | _ => w

/-! ### Every other owner stays -/

/-- A stored functor stays until its batch ends or its loop is destroyed. -/
theorem Owner.functor_stays {w : World} (placed : w.Placed) {a : Action} (guard : w.Enabled a)
    {c : ConnId} (kept : ∀ l, a ≠ .endBatch l ∧ a ≠ .destroyLoop l) {l : LoopId} {task : Task}
    (stored : task ∈ (w.loops l).stored) (held : c ∈ task.held) :
    (w.next a).Owner c := by
  obtain ⟨here, member⟩ := Loop.mem_stored.mp stored
  have still : ((w.next a).loops l).destroyed = false :=
    ((next_destroyed guard l).resolve_right fun ends => (kept l).2 ends.1).trans here
  refine .functor l task (Loop.mem_stored.mpr ⟨still, ?_⟩) held
  have change := next_queue placed guard l
  generalize ((w.next a).loops l).functors = functors at change
  cases change with
  | intro base queued source appends =>
      rw [BatchQueue.stored_pushAll]
      refine List.mem_append_left _ ?_
      cases source with
      | same idle => exact member
      | swapped running done =>
          rw [BatchQueue.stored_swap done.1]
          rwa [BatchQueue.stored, done.2] at member
      | released running => exact absurd running (kept l).1
      | advanced kernel other rest running bottom next =>
          rwa [BatchQueue.stored_advance]

/-- A thread's copy stays until the thread drops it. -/
theorem Owner.copy_stays {w : World} {a : Action} (guard : w.Enabled a) {c : ConnId}
    (kept : ∀ t c, a ≠ .drop t c) {t : ThreadId} (member : c ∈ (w.threads t).copies) :
    (w.next a).Owner c := by
  refine .copy t ?_
  have change := next_thread guard t
  generalize (w.next a).threads t = thread at change
  cases change with
  | gained c' source => exact List.mem_cons_of_mem _ member
  | dropped c' running => exact absurd running (kept t c')
  | same idle | called task free called | queued task running calling => exact member

/-- What a thread is about to queue stays until it is queued. -/
theorem Owner.call_stays {w : World} {a : Action} (guard : w.Enabled a) {c : ConnId}
    (kept : ∀ t, a ≠ .queueInLoop t) {t : ThreadId} {task : Task}
    (calling : (w.threads t).calling = some task) (held : c ∈ task.held) :
    (w.next a).Owner c := by
  have change := next_thread guard t
  generalize after : (w.next a).threads t = thread at change
  cases change with
  | same idle | gained c' source | dropped c' running =>
      exact .call t task (by rw [after]; exact calling) held
  | called other free called =>
      rw [free] at calling
      cases calling
  | queued other running calling' => exact absurd running (kept t)

/-- A frame stays until its function returns. -/
theorem Owner.frame_stays {w : World} {a : Action} (guard : w.Enabled a) {c : ConnId}
    (idle : runs? a = none) (kept : ∀ l, a ≠ .userReturn l ∧ a ≠ .submit l) {l : LoopId}
    {frame : Frame} (member : frame ∈ (w.loops l).stack) (held : c ∈ frame.held) :
    (w.next a).Owner c := by
  have change := next_stack guard l
  generalize after : ((w.next a).loops l).stack = stack at change
  have stays : frame ∈ stack → (w.next a).Owner c := fun still =>
    .frame l frame (by rw [after]; exact still) held
  cases change with
  | same still => exact stays member
  | dispatched named c' revents running empty active =>
      rw [empty] at member
      exact absurd member List.not_mem_nil
  | ran kernel job loop running fetched => exact absurd running (ne_run idle kernel)
  | called task still pushed => exact stays (List.mem_cons_of_mem _ member)
  | submitted task rest running top => exact absurd running (kept l).2
  | returned copies rest running top => exact absurd running (kept l).1
  | took t c' copies rest running top =>
      rw [top] at member
      rcases List.mem_cons.mp member with rfl | below
      · exact .frame l (.user (c' :: copies)) (by rw [after]; exact List.mem_cons_self)
          (List.mem_cons_of_mem _ held)
      · exact stays (List.mem_cons_of_mem _ below)
  | destroying running base => exact stays (List.mem_cons_of_mem _ member)
  | member top frames rest running split plain others =>
      rw [split] at member
      rcases List.mem_cons.mp member with rfl | below
      · rw [plain.2] at held
        exact absurd held List.not_mem_nil
      · exact stays (List.mem_append_right _ below)

/-- The actions that let owners go. -/
def lets : Action → Bool
  | .endBatch _ | .destroyLoop _ | .userReturn _ | .drop _ _ | .destroyConnection _ | .submit _
  | .queueInLoop _ | .run _ _ => true
  | _ => false

theorem Owner.stays {w : World} (placed : w.Placed) {a : Action} (guard : w.Enabled a)
    {c : ConnId} (quiet : lets a = false) (owner : w.Owner c) : (w.next a).Owner c := by
  cases owner with
  | entry name member =>
      refine .entry name ?_
      change _ ∈ (w.next a).registry.connections
      have change := next_registry guard
      generalize (w.next a).registry = registry at change
      cases change with
      | same other | counted l running => exact member
      | entered l running => exact ConnectionMap.mem_emplace_of_mem member
      | ran l kernel job running current =>
          subst running
          cases quiet
      | erased c' running =>
          subst running
          cases quiet
  | frame l frame member held =>
      refine .frame_stays guard ?_ (fun l' => ⟨?_, ?_⟩) member held
      · cases a with
        | run l kernel => cases quiet
        | _ => rfl
      · rintro rfl
        cases quiet
      · rintro rfl
        cases quiet
  | functor l task member held =>
      refine .functor_stays placed guard (fun l' => ⟨?_, ?_⟩) member held <;>
      · rintro rfl
        cases quiet
  | copy t member =>
      refine .copy_stays guard ?_ member
      rintro t' c' rfl
      cases quiet
  | call t task calling held =>
      refine .call_stays guard ?_ calling held
      rintro t' rfl
      cases quiet

/-! ### What is queued -/

/-- The owners behind `queueInLoop`: a destroyed loop takes nothing. -/
theorem owner_queueInLoop_iff {w : World} {c : ConnId} {l : LoopId} {tasks : List Task} :
    (w.queueInLoop l tasks).Owner c ↔
      w.Owner c ∨ (w.loops l).destroyed = false ∧ ∃ task ∈ tasks, c ∈ task.held := by
  have same (l' : LoopId) :
      ((w.queueInLoop l tasks).loops l').destroyed = (w.loops l').destroyed :=
    setLoop_part_same Loop.destroyed _ _ _ (by rfl)
  constructor
  · intro owner
    cases owner with
    | entry name member => exact .inl (.entry name member)
    | frame l' frame member held =>
        exact .inl (.frame l' frame (stack_queueInLoop .. ▸ member) held)
    | functor l' task member held =>
        obtain ⟨alive, member⟩ := Loop.mem_stored.mp member
        rw [same] at alive
        rw [functors_queueInLoop, BatchQueue.stored_pushAll] at member
        rcases List.mem_append.mp member with old | new
        · exact .inl (.functor l' task (Loop.mem_stored.mpr ⟨alive, old⟩) held)
        · split at new
          · rename_i here
            exact .inr ⟨here ▸ alive, task, new, held⟩
          · exact absurd new List.not_mem_nil
    | copy t member => exact .inl (.copy t member)
    | call t task calling held => exact .inl (.call t task calling held)
  · rintro (owner | ⟨alive, task, member, held⟩)
    · refine owner.mono (List.Subset.refl _) (fun l' => ?_) (fun l' task member => ?_) rfl
      · rw [stack_queueInLoop]
        exact List.Subset.refl _
      · obtain ⟨alive, member⟩ := Loop.mem_stored.mp member
        refine Loop.mem_stored.mpr ⟨(same l').trans alive, ?_⟩
        rw [functors_queueInLoop, BatchQueue.stored_pushAll]
        exact List.mem_append_left _ member
    · exact .of_queueInLoop member held alive

/-- The top of a stack is an owner by its copies. -/
theorem owner_pop_iff {w : World} {c : ConnId} {l : LoopId} {frame : Frame} {rest : List Frame}
    (top : (w.loops l).stack = frame :: rest) :
    w.Owner c ↔ (w.setLoop l (w.loops l).pop).Owner c ∨ c ∈ frame.held := by
  have below : (w.loops l).pop.stack = rest := congrArg List.tail top
  constructor
  · intro owner
    cases owner with
    | entry name member => exact .inl (.entry name member)
    | frame l' other member held =>
        by_cases here : l' = l
        · subst here
          rw [top] at member
          rcases List.mem_cons.mp member with rfl | later
          · exact .inr held
          · refine .inl (.frame l' other ?_ held)
            rwa [stack_setLoop, if_pos rfl, below]
        · refine .inl (.frame l' other ?_ held)
          rwa [stack_setLoop, if_neg here]
    | functor l' task member held =>
        refine .inl (.functor l' task ?_ held)
        rwa [setLoop_part_same Loop.stored _ _ _ (by rfl)]
    | copy t member => exact .inl (.copy t member)
    | call t task calling held => exact .inl (.call t task calling held)
  · rintro (owner | held)
    · refine owner.mono (List.Subset.refl _) (fun l' other member => ?_) (fun l' => ?_) rfl
      · rw [stack_setLoop] at member
        split at member
        · rename_i here
          exact here ▸ List.mem_of_mem_tail member
        · exact member
      · rw [setLoop_part_same Loop.stored _ _ _ (by rfl)]
        exact List.Subset.refl _
    · exact .frame l frame (by rw [top]; exact List.mem_cons_self) held

/-- So is the call that a thread of the user is in. -/
theorem owner_call_iff {w : World} {c : ConnId} {t : ThreadId} {task : Task}
    (calling : (w.threads t).calling = some task) :
    w.Owner c ↔
      (w.setThread t { w.threads t with calling := none }).Owner c ∨ c ∈ task.held := by
  constructor
  · intro owner
    cases owner with
    | entry name member => exact .inl (.entry name member)
    | frame l frame member held => exact .inl (.frame l frame member held)
    | functor l other member held => exact .inl (.functor l other member held)
    | copy t' member =>
        refine .inl (.copy t' ?_)
        rw [setThread_threads, Function.update_apply]
        split
        · rename_i here
          exact here ▸ member
        · exact member
    | call t' other calling' held =>
        by_cases here : t' = t
        · subst here
          rw [calling] at calling'
          cases calling'
          exact .inr held
        · refine .inl (.call t' other ?_ held)
          rwa [setThread_threads, Function.update_of_ne here]
  · rintro (owner | held)
    · cases owner with
      | entry name member => exact .entry name member
      | frame l frame member held => exact .frame l frame member held
      | functor l other member held => exact .functor l other member held
      | copy t' member =>
          refine .copy t' ?_
          rw [setThread_threads, Function.update_apply] at member
          split at member
          · rename_i here
            exact here ▸ member
          · exact member
      | call t' other calling' held =>
          refine .call t' other ?_ held
          rw [setThread_threads, Function.update_apply] at calling'
          split at calling'
          · cases calling'
          · exact calling'
    · exact .call t task calling held

/-- A call of `queueInLoop` hands its copies on to the loop, if that exists. -/
theorem owner_queued_iff {w : World} {t : ThreadId} (guard : w.Enabled (.queueInLoop t))
    {c : ConnId} :
    (w.next (.queueInLoop t)).Owner c ↔ (w.letGo (.queueInLoop t)).Owner c := by
  obtain ⟨task, calling⟩ := Option.isSome_iff_exists.mp guard.2
  have same : ((w.setThread t { w.threads t with calling := none }).loops
      (w.target task)).destroyed = (w.loops (w.target task)).destroyed := rfl
  simp only [next, letGo, calling]
  rw [owner_queueInLoop_iff, same]
  cases alive : w.alive task with
  | true =>
      rw [if_pos rfl, owner_call_iff calling]
      simp [alive_iff.mp alive]
  | false =>
      have gone : (w.loops (w.target task)).destroyed = true := by
        simpa [World.alive] using alive
      simp [gone]

theorem owner_submitted_iff {w : World} {l : LoopId} (guard : w.Enabled (.submit l))
    {c : ConnId} : (w.next (.submit l)).Owner c ↔ (w.letGo (.submit l)).Owner c := by
  obtain ⟨task, submitted⟩ := Option.isSome_iff_exists.mp guard.2
  obtain ⟨rest, top⟩ := List.head?_eq_some_iff.mp (submitted_eq submitted).1
  have same : ((w.setLoop l (w.loops l).pop).loops (w.target task)).destroyed =
      (w.loops (w.target task)).destroyed := setLoop_part_same Loop.destroyed _ _ _ (by rfl)
  simp only [next, letGo, submitted]
  rw [owner_queueInLoop_iff, same]
  cases alive : w.alive task with
  | true =>
      rw [if_pos rfl, owner_pop_iff top]
      simp [alive_iff.mp alive, Frame.held, Job.held]
  | false =>
      have gone : (w.loops (w.target task)).destroyed = true := by
        simpa [World.alive] using alive
      simp [gone]

/-! ### A job that ends -/

@[simp] theorem erasing_loops (w : World) (job : Job) : (w.erasing job).loops = w.loops := by
  rw [erasing]
  split <;> rfl

@[simp] theorem erasing_threads (w : World) (job : Job) :
    (w.erasing job).threads = w.threads := by
  rw [erasing]
  split <;> rfl

theorem mem_eraseOthers {w : World} {c c' : ConnId} {name : String} :
    (name, c) ∈ (w.eraseOthers c').server.connections ↔
      (name, c) ∈ w.server.connections ∧ (name ≠ (w.conns c').conn.name ∨ c = c') := by
  simp [eraseOthers, setConnections]

theorem mem_erasing {w : World} {job : Job} {c : ConnId} {name : String}
    (member : (name, c) ∈ (w.erasing job).server.connections) :
    (name, c) ∈ w.server.connections ∧
      ∀ c', removes? job = some c' → name ≠ (w.conns c').conn.name ∨ c = c' := by
  rw [erasing] at member
  split at member
  · rename_i c' removes
    obtain ⟨stored, spared⟩ := mem_eraseOthers.mp member
    refine ⟨stored, fun other same => ?_⟩
    rw [removes] at same
    cases same
    exact spared
  · rename_i none
    refine ⟨member, fun other same => ?_⟩
    rw [none] at same
    cases same

/-- A fetched functor stays stored in the batch. -/
theorem fetch_stored {loop after : Loop} {job : Job} (fetched : loop.fetch = some (job, after)) :
    after.stored = loop.stored := by
  cases Loop.fetched fetched with
  | called _ rest top => rfl
  | functor task rest bottom draining next =>
      simp only [Loop.stored, BatchQueue.stored_advance]

theorem fetch_stored_eq {w : World} {l : LoopId} {job : Job} {loop : Loop}
    (fetched : (w.loops l).fetch = some (job, loop)) (l' : LoopId) :
    ((w.setLoop l loop).loops l').stored = (w.loops l').stored :=
  setLoop_part_same Loop.stored w l' l (fetch_stored fetched)

/-- What a job queues for a loop that exists is an owner by what it has captured. -/
theorem Owner.run_queued {w : World} {l : LoopId} {kernel : Kernel} {job : Job} {loop : Loop}
    (fetched : (w.loops l).fetch = some (job, loop)) {c : ConnId} (task : Task)
    (queued : task ∈ (w.perform l kernel job).queued) (held : c ∈ task.held)
    (alive : (w.loops (w.perform l kernel job).target).destroyed = false) :
    (w.next (.run l kernel)).Owner c := by
  have same : loop.destroyed = (w.loops l).destroyed := by
    cases Loop.fetched fetched <;> rfl
  simp only [next, fetched]
  rw [commit]
  refine .of_queueInLoop queued held ?_
  rw [setLoop_part_same Loop.destroyed _ _ _ (by exact same)]
  exact alive

/-- What a job leaves on the stack is there. -/
theorem Owner.run_frame {w : World} {l : LoopId} {kernel : Kernel} {job : Job} {loop : Loop}
    (fetched : (w.loops l).fetch = some (job, loop)) {c : ConnId} {frame : Frame}
    (left : frame ∈ (w.perform l kernel job).frames ++ loop.stack) (held : c ∈ frame.held) :
    (w.next (.run l kernel)).Owner c := by
  refine .frame l frame ?_ held
  rw [run_stack kernel fetched, if_pos rfl]
  exact left

/-- The copy of a function that hands it on. -/
theorem Owner.handed {w : World} (placed : w.Placed) {l : LoopId} {kernel : Kernel} {job : Job}
    {loop : Loop} (fetched : (w.loops l).fetch = some (job, loop)) (hands : w.handsOn job = true)
    {c : ConnId} (held : c ∈ job.held) : (w.next (.run l kernel)).Owner c := by
  have gives (frame : Frame) (left : frame ∈ (w.perform l kernel job).frames)
      (held : c ∈ frame.held) : (w.next (.run l kernel)).Owner c :=
    .run_frame fetched (List.mem_append_left _ left) held
  cases job with
  | task task =>
      cases task with
      | connectEstablished c' =>
          refine gives (.user [c']) ?_ held
          have announce : (w.conns c').conn.connectEstablished.callbacks.connectionCallback = true :=
            hands
          simp [perform, runTask, connectEstablished, announce]
      | connectDestroyed c' =>
          refine gives (.job (.removeChannel c')) ?_ held
          exact List.mem_append_right _ (List.mem_singleton_self _)
      | removeConnectionInLoop c' =>
          obtain ⟨stored, alive⟩ := Bool.and_eq_true_iff.mp hands
          have outcome : (w.removeConnectionInLoop c').queued = [.connectDestroyed c'] ∧
              (w.removeConnectionInLoop c').target = (w.conns c').conn.loop := by
            simp [World.removeConnectionInLoop, stored, quiet]
          refine .run_queued fetched (.connectDestroyed c') ?_ held ?_
          · exact outcome.1 ▸ List.mem_singleton_self _
          · exact outcome.2 ▸ alive_iff.mp alive
      | user c' => exact gives (.user [c']) (List.mem_singleton_self _) held
      | sendInLoop c' data caller | shutdownInLoop c' | writeCompleteCallback c'
      | highWaterMarkCallback c' total => cases hands
  | closeCallback c' =>
      by_cases base : l = 0
      · refine gives (.job (.task (.removeConnectionInLoop c'))) ?_ held
        simp [perform, closeCallback, base]
      · have outcome : (w.closeCallback l c').queued = [.removeConnectionInLoop c'] ∧
            (w.closeCallback l c').target = 0 := by
          simp [World.closeCallback, base]
        refine .run_queued fetched (.removeConnectionInLoop c') ?_ held ?_
        · exact outcome.1 ▸ List.mem_singleton_self _
        · exact outcome.2 ▸ placed.base
  | callback callback c' | releaseGuard c' | removeChannel c' => cases hands

theorem run_connections {w : World} {l : LoopId} (kernel : Kernel) {job : Job} {loop : Loop}
    (fetched : (w.loops l).fetch = some (job, loop)) :
    (w.next (.run l kernel)).server.connections = (w.perform l kernel job).connections := by
  simp only [next, fetched]
  rfl

/-- The entries that a job leaves, and the one whose copy it hands on. -/
theorem Owner.run_entry {w : World} (placed : w.Placed) {l : LoopId} {kernel : Kernel} {job : Job}
    {loop : Loop} (fetched : (w.loops l).fetch = some (job, loop)) (hands : w.handsOn job = true)
    {c : ConnId} {name : String} (member : (name, c) ∈ w.server.connections)
    (spared : ∀ c', removes? job = some c' → name ≠ (w.conns c').conn.name ∨ c = c') :
    (w.next (.run l kernel)).Owner c := by
  have connections := run_connections kernel fetched
  have change := w.perform_connections l kernel job
  generalize after : (w.perform l kernel job).connections = map at change connections
  cases change with
  | same job absent => exact .entry name (connections ▸ member)
  | erased c' stored =>
      rcases spared c' rfl with other | rfl
      · exact .entry name (connections ▸ ConnectionMap.mem_erase.mpr ⟨member, other⟩)
      · exact .handed placed fetched hands (List.mem_singleton_self _)

/-- A job keeps the owners that it does not let go. -/
theorem Owner.run {w : World} (placed : w.Placed) {l : LoopId} {kernel : Kernel}
    (guard : w.Enabled (.run l kernel)) {c : ConnId}
    (owner : (w.letGo (.run l kernel)).Owner c) : (w.next (.run l kernel)).Owner c := by
  obtain ⟨job, loop, fetched, _⟩ := enabled_run guard
  have elsewhere {l' : LoopId} {frame : Frame} (other : l' ≠ l)
      (member : frame ∈ (w.loops l').stack) (held : c ∈ frame.held) :
      (w.next (.run l kernel)).Owner c := by
    refine .frame l' frame ?_ held
    rw [run_stack kernel fetched, if_neg other]
    exact member
  have functors {l' : LoopId} {task : Task} (member : task ∈ (w.loops l').stored)
      (held : c ∈ task.held) : (w.next (.run l kernel)).Owner c :=
    .functor_stays placed guard (fun _ => ⟨nofun, nofun⟩) member held
  have copies {t : ThreadId} (member : c ∈ (w.threads t).copies) :
      (w.next (.run l kernel)).Owner c := .copy_stays guard (fun _ _ => nofun) member
  have calls {t : ThreadId} {task : Task} (calling : (w.threads t).calling = some task)
      (held : c ∈ task.held) : (w.next (.run l kernel)).Owner c :=
    .call_stays guard (fun _ => nofun) calling held
  simp only [letGo, fetched] at owner
  split at owner
  · rename_i hands
    cases owner with
    | entry name member =>
        obtain ⟨stored, spared⟩ := mem_erasing member
        exact .run_entry placed fetched hands stored spared
    | frame l' frame member held =>
        rw [erasing_loops] at member
        by_cases here : l' = l
        · subst here
          rcases Loop.fetch_stack fetched with top | ⟨bottom, _⟩
          · rw [top] at member
            rcases List.mem_cons.mp member with rfl | below
            · exact .handed placed fetched hands held
            · exact .run_frame fetched (List.mem_append_right _ below) held
          · rw [bottom] at member
            exact absurd member List.not_mem_nil
        · exact elsewhere here member held
    | functor l' task member held => exact functors (erasing_loops w job ▸ member) held
    | copy t member => exact copies (erasing_threads w job ▸ member)
    | call t task calling held => exact calls (erasing_threads w job ▸ calling) held
  · cases owner with
    | entry name member => exact .entry name (run_connections kernel fetched ▸ member)
    | frame l' frame member held =>
        rw [stack_setLoop] at member
        split at member
        · exact .run_frame fetched (List.mem_append_right _ member) held
        · rename_i other
          exact elsewhere other member held
    | functor l' task member held => exact functors (fetch_stored_eq fetched l' ▸ member) held
    | copy t member => exact copies member
    | call t task calling held => exact calls calling held

/-- A frame that is pushed is an owner by its copies. -/
theorem owner_push_iff {w : World} {c : ConnId} {l : LoopId} {frame : Frame} :
    (w.setLoop l ((w.loops l).push [frame])).Owner c ↔ w.Owner c ∨ c ∈ frame.held := by
  have top : ((w.setLoop l ((w.loops l).push [frame])).loops l).stack =
      frame :: (w.loops l).stack := by
    rw [stack_setLoop, if_pos rfl]
    rfl
  have popped : (w.setLoop l ((w.loops l).push [frame])).setLoop l
      ((w.setLoop l ((w.loops l).push [frame])).loops l).pop = w := by
    rw [setLoop_setLoop, setLoop_loops, Function.update_self]
    exact setLoop_self w l
  rw [owner_pop_iff top, popped]

/-- The owners behind `runInLoop`: the functor is called at once, or it is queued. -/
theorem owner_runInLoop_iff {w : World} {c : ConnId} {l ioLoop : LoopId} {task : Task} :
    (w.runInLoop l ioLoop task).Owner c ↔
      w.Owner c ∨ (ioLoop = l ∨ (w.loops ioLoop).destroyed = false) ∧ c ∈ task.held := by
  rw [runInLoop]
  split
  · rename_i inline
    rw [owner_push_iff]
    simp [inline, Frame.held, Job.held]
  · rename_i elsewhere
    rw [owner_queueInLoop_iff]
    simp [elsewhere]

/-- The entry of `c'` is what its erasure takes away beyond the entries of others. -/
theorem owner_eraseOthers_iff {w : World} {c c' : ConnId}
    (stored : ((w.conns c').conn.name, c') ∈ w.server.connections) :
    (w.eraseOthers c').Owner c ↔
      (w.setConnections (w.server.connections.erase (w.conns c').conn.name)).Owner c ∨
        c = c' := by
  constructor
  · intro owner
    cases owner with
    | entry name member =>
        obtain ⟨old, spared⟩ := mem_eraseOthers.mp member
        rcases spared with other | same
        · exact .inl (.entry name (ConnectionMap.mem_erase.mpr ⟨old, other⟩))
        · exact .inr same
    | frame l frame member held => exact .inl (.frame l frame member held)
    | functor l task member held => exact .inl (.functor l task member held)
    | copy t member => exact .inl (.copy t member)
    | call t task calling held => exact .inl (.call t task calling held)
  · rintro (owner | rfl)
    · refine owner.mono ?_ (fun _ => List.Subset.refl _) (fun _ => List.Subset.refl _) rfl
      rintro ⟨name, c⟩ member
      obtain ⟨old, other⟩ := ConnectionMap.mem_erase.mp member
      exact mem_eraseOthers.mpr ⟨old, .inl other⟩
    · exact .entry _ (mem_eraseOthers.mpr ⟨stored, .inr rfl⟩)

/-- The functor of `connectDestroyed` takes over the copy of the entry that `~TcpServer` resets, if
there is a loop to run it. -/
theorem owner_destroyed_iff {w : World} (placed : w.Placed) {c' : ConnId}
    (guard : w.Enabled (.destroyConnection c')) {c : ConnId} :
    (w.next (.destroyConnection c')).Owner c ↔ (w.letGo (.destroyConnection c')).Owner c := by
  simp only [next, letGo]
  rw [owner_runInLoop_iff]
  cases alive : w.alive (.connectDestroyed c') with
  | true =>
      have there : (w.loops (w.conns c').conn.loop).destroyed = false := alive_iff.mp alive
      rw [if_pos rfl, owner_eraseOthers_iff guard.2]
      refine or_congr Iff.rfl ⟨fun held => List.mem_singleton.mp held.2, ?_⟩
      rintro rfl
      exact ⟨.inr there, List.mem_singleton_self _⟩
  | false =>
      have gone : (w.loops (w.conns c').conn.loop).destroyed = true := by
        simpa [World.alive, target, Task.conn] using alive
      rw [if_neg Bool.false_ne_true]
      refine or_iff_left ?_
      rintro ⟨base | there, _⟩
      · rw [base, placed.base] at gone
        cases gone
      · exact absurd (there.symm.trans gone) Bool.false_ne_true

/-- The end of a batch lets go what it releases, and nothing else. -/
theorem endBatch_stack (w : World) (l l' : LoopId) :
    ((w.next (.endBatch l)).loops l').stack = ((w.letGo (.endBatch l)).loops l').stack := by
  simp only [next, letGo, stack_setLoop]

theorem endBatch_stored (w : World) (l l' : LoopId) :
    ((w.next (.endBatch l)).loops l').stored = ((w.letGo (.endBatch l)).loops l').stored := by
  simp only [next, letGo, setLoop_part Loop.stored]
  rfl

/-- An owner that the step does not let go is there behind it, itself or through the one to whom
it has handed its copy. -/
theorem Owner.next {w : World} (placed : w.Placed) {a : Action} (guard : w.Enabled a) {c : ConnId}
    (owner : (w.letGo a).Owner c) : (w.next a).Owner c := by
  cases a with
  | run l kernel => exact owner.run placed guard
  | destroyConnection c' => exact (owner_destroyed_iff placed guard).mpr owner
  | submit l => exact (owner_submitted_iff guard).mpr owner
  | queueInLoop t => exact (owner_queued_iff guard).mpr owner
  | destroyLoop l => exact owner
  | userReturn l => exact owner
  | drop t c' => exact owner
  | endBatch l =>
      exact owner.mono (List.Subset.refl _) (fun l' _ member => endBatch_stack w l l' ▸ member)
        (fun l' _ member => endBatch_stored w l l' ▸ member) rfl
  | enterLoop l | poll l active | handleEvent l named | doPendingFunctors l | userSend l c' data
  | userShutdown l c' | userSetHighWaterMarkCallback l c' mark | userRetrieve l c' len
  | userTake l t c' | userGive l t c' | copy t other c' | send t c' data | shutdown t c'
  | queueUser t c' | quit l | destroyServer | destroyMember =>
      exact .stays placed guard rfl owner

/-! ### Nothing else is an owner -/

theorem fetch_stack_subset {w : World} {l : LoopId} {job : Job} {loop : Loop}
    (fetched : (w.loops l).fetch = some (job, loop)) (l' : LoopId) :
    ((w.setLoop l loop).loops l').stack ⊆ (w.loops l').stack := by
  intro frame member
  rw [stack_setLoop] at member
  split at member
  · rename_i here
    rw [Loop.fetch_tail fetched] at member
    exact here ▸ List.mem_of_mem_tail member
  · exact member

/-- The next job of a loop is an owner by its local copies. -/
theorem Owner.of_job {w : World} {l : LoopId} {job : Job} {loop : Loop}
    (fetched : (w.loops l).fetch = some (job, loop))
    (running : (w.loops l).phase ≠ .stopped → (w.loops l).destroyed = false) {c : ConnId}
    (held : c ∈ job.held) : w.Owner c := by
  cases Loop.fetched fetched with
  | called _ rest top =>
      exact .frame l (.job job) (by rw [top]; exact List.mem_cons_self) held
  | functor task rest bottom draining next =>
      have waiting : task ∈ (w.loops l).functors.batch := by
        rw [next]
        exact List.mem_cons_self
      have exists' := running (by rw [draining]; decide)
      exact .functor l task (Loop.mem_stored.mpr
        ⟨exists', List.mem_append_right _ (List.mem_append_left _ waiting)⟩) held

/-- A job without a copy leaves the owners as they are. -/
theorem Owner.without_job {w : World} {l : LoopId} (kernel : Kernel) {job : Job} {loop : Loop}
    (fetched : (w.loops l).fetch = some (job, loop)) (bare : job.held = []) {c : ConnId}
    (owner : w.Owner c) :
    ((w.setConnections (w.perform l kernel job).connections).setLoop l loop).Owner c := by
  cases owner with
  | entry name member =>
      refine .entry name ?_
      change _ ∈ (w.perform l kernel job).connections
      have change := w.perform_connections l kernel job
      generalize (w.perform l kernel job).connections = map at change
      cases change with
      | same job absent => exact member
      | erased c' stored => exact absurd bare (List.cons_ne_nil _ _)
  | frame l' frame member held =>
      by_cases here : l' = l
      · subst here
        rcases Loop.fetch_stack fetched with top | ⟨bottom, _⟩
        · rw [top] at member
          rcases List.mem_cons.mp member with rfl | below
          · rw [Frame.held, bare] at held
            exact absurd held List.not_mem_nil
          · refine .frame l' frame ?_ held
            rwa [stack_setLoop, if_pos rfl]
        · rw [bottom] at member
          exact absurd member List.not_mem_nil
      · refine .frame l' frame ?_ held
        rwa [stack_setLoop, if_neg here]
  | functor l' task member held =>
      refine .functor l' task ?_ held
      rwa [setLoop_part_same Loop.stored _ _ _ (by exact fetch_stored fetched)]
  | copy t member => exact .copy t member
  | call t task calling held => exact .call t task calling held

theorem Leaves.held {c c' : ConnId} {frame : Frame} (leaves : Leaves c frame)
    (held : c' ∈ frame.held) : c' = c := by
  cases leaves <;> exact List.mem_singleton.mp held

/-- A queued functor that owns a connection owns the one of the job. -/
theorem Calls.held {w : World} {l : LoopId} {job : Job} {pushed queued : List Task}
    (calls : Calls w l job pushed queued) {task : Task} (member : task ∈ queued) {c : ConnId}
    (held : c ∈ task.held) : c = job.conn := by
  rcases calls.of_queued member with ⟨kind, rfl, _⟩ | ⟨c', rfl, rfl, _⟩ | ⟨c', rfl, rfl, _⟩
  · cases kind <;> exact absurd held List.not_mem_nil
  · exact List.mem_singleton.mp held
  · exact List.mem_singleton.mp held

/-- A function that keeps its copy to itself leaves no frame and queues nothing, unless for a loop
that has been destroyed. -/
theorem passes_nothing {w : World} {job : Job} (keeps : w.handsOn job = false)
    (holds : job.held ≠ []) (l : LoopId) (kernel : Kernel) :
    (w.perform l kernel job).frames = [] ∧
      ((w.perform l kernel job).queued = [] ∨
        (w.loops (w.perform l kernel job).target).destroyed = true) := by
  cases job with
  | task task =>
      cases task with
      | connectEstablished c =>
          have silent : (w.conns c).conn.connectEstablished.callbacks.connectionCallback = false :=
            keeps
          simp [perform, runTask, connectEstablished, silent, quiet]
      | removeConnectionInLoop c =>
          have kept : (w.server.connections.contains (w.conns c).conn.name &&
              !(w.loops (w.conns c).conn.loop).destroyed) = false := keeps
          rcases Bool.and_eq_false_iff.mp kept with absent | gone
          · simp [perform, runTask, removeConnectionInLoop, absent, quiet]
          · have destroyed := (Bool.not_eq_false' _).mp gone
            simp only [perform, runTask, removeConnectionInLoop, quiet]
            split <;> exact ⟨rfl, .inr destroyed⟩
      | connectDestroyed c | user c => cases keeps
      | sendInLoop c data caller | shutdownInLoop c | writeCompleteCallback c
      | highWaterMarkCallback c total => exact absurd rfl holds
  | callback callback c => exact absurd rfl holds
  | closeCallback c => cases keeps
  | releaseGuard c | removeChannel c => exact ⟨rfl, .inl rfl⟩

/-- A function that hands its copy on has one of its own connection. -/
theorem held_of_handsOn {w : World} {job : Job} (hands : w.handsOn job = true) :
    job.conn ∈ job.held := by
  cases job with
  | task task =>
      cases task with
      | sendInLoop c data caller | shutdownInLoop c | writeCompleteCallback c
      | highWaterMarkCallback c total => cases hands
      | _ => exact List.mem_singleton_self _
  | closeCallback c => exact List.mem_singleton_self _
  | callback callback c | releaseGuard c | removeChannel c => cases hands

/-- An owner behind a job has got its copy from it, or is an owner without it. -/
theorem Owner.of_run {w : World} {l : LoopId} {kernel : Kernel} {job : Job} {loop : Loop}
    (fetched : (w.loops l).fetch = some (job, loop)) {c : ConnId}
    (owner : (w.next (.run l kernel)).Owner c) :
    (c = job.conn ∧
        ((w.perform l kernel job).frames ≠ [] ∨ (w.perform l kernel job).queued ≠ [] ∧
          (w.loops (w.perform l kernel job).target).destroyed = false)) ∨
      ((w.setConnections (w.perform l kernel job).connections).setLoop l loop).Owner c := by
  have same : loop.destroyed = (w.loops l).destroyed := by
    cases Loop.fetched fetched <;> rfl
  simp only [World.next, fetched] at owner
  rw [commit, owner_queueInLoop_iff] at owner
  rcases owner with owner | ⟨alive, task, member, held⟩
  · cases owner with
    | entry name member => exact .inr (.entry name member)
    | frame l' frame member held =>
        rw [stack_setLoop] at member
        split at member
        · rename_i here
          rcases List.mem_append.mp member with left | below
          · refine .inl ⟨(w.perform_leaves l kernel job frame left).held held, .inl ?_⟩
            exact List.ne_nil_of_mem left
          · refine .inr (.frame l' frame ?_ held)
            rwa [stack_setLoop, if_pos here]
        · rename_i other
          refine .inr (.frame l' frame ?_ held)
          rwa [stack_setLoop, if_neg other]
    | functor l' task member held =>
        refine .inr (.functor l' task ?_ held)
        rw [setLoop_part Loop.stored] at member ⊢
        exact member
    | copy t member => exact .inr (.copy t member)
    | call t task calling held => exact .inr (.call t task calling held)
  · rw [setLoop_part_same Loop.destroyed _ _ _ (by exact same)] at alive
    refine .inl ⟨(w.perform_calls l kernel job).held member held, .inr ⟨?_, alive⟩⟩
    exact List.ne_nil_of_mem member

/-- A job that hands its copy on erases from the map what `erasing` says. -/
theorem MapChange.erasing {w : World} {job : Job} {map : ConnectionMap}
    (change : MapChange w job map) (hands : w.handsOn job = true) :
    map ⊆ (w.erasing job).server.connections := by
  cases change with
  | same job absent =>
      rw [World.erasing]
      split
      · rename_i c removes
        have removal : job = .task (.removeConnectionInLoop c) := by
          unfold removes? at removes
          split at removes <;> cases removes
          rfl
        subst removal
        have stored := (Bool.and_eq_true_iff.mp hands).1
        rw [absent c rfl] at stored
        cases stored
      · exact List.Subset.refl _
  | erased c stored =>
      rintro ⟨name, c'⟩ member
      obtain ⟨old, other⟩ := ConnectionMap.mem_erase.mp member
      exact mem_eraseOthers.mpr ⟨old, .inl other⟩

theorem Owner.letGo_run {w : World} (placed : w.Placed) {l : LoopId} {kernel : Kernel}
    (guard : w.Enabled (.run l kernel)) {c : ConnId} (owned : w.Owner c)
    (owner : (w.next (.run l kernel)).Owner c) : (w.letGo (.run l kernel)).Owner c := by
  obtain ⟨job, loop, fetched, _⟩ := enabled_run guard
  have behind := owner.of_run fetched
  have change := w.perform_connections l kernel job
  simp only [letGo, fetched]
  split
  · rename_i hands
    rcases behind with ⟨rfl, _⟩ | behind
    · have there : (w.erasing job).loops l = w.loops l := by rw [erasing_loops]
      have fetched' : ((w.erasing job).loops l).fetch = some (job, loop) := by rw [there, fetched]
      refine .of_job fetched' ?_ (held_of_handsOn hands)
      rw [there]
      exact placed.running
    · refine behind.mono (change.erasing hands) (fun l' => ?_) (fun l' => ?_)
        (w.erasing_threads job).symm
      · rw [erasing_loops]
        exact fetch_stack_subset fetched l'
      · rw [erasing_loops]
        exact fun _ member => fetch_stored_eq fetched l' ▸ member
  · rename_i keeps
    by_cases bare : job.held = []
    · exact owned.without_job kernel fetched bare
    · refine behind.resolve_left ?_
      rintro ⟨_, passes⟩
      obtain ⟨noFrame, noTask⟩ := passes_nothing (by simpa using keeps) bare l kernel
      rcases passes with left | ⟨queued, alive⟩
      · exact left noFrame
      · rcases noTask with none | gone
        · exact queued none
        · exact absurd (alive.symm.trans gone) Bool.false_ne_true

/-- `letGo` is exact: what was owned before the step is owned behind it if and only if the step
has not let the last owner go. -/
theorem Owner.next_iff {w : World} (placed : w.Placed) {a : Action} (guard : w.Enabled a)
    {c : ConnId} (owned : w.Owner c) : (w.next a).Owner c ↔ (w.letGo a).Owner c := by
  refine ⟨fun owner => ?_, .next placed guard⟩
  cases a with
  | run l kernel => exact owned.letGo_run placed guard owner
  | destroyConnection c' => exact (owner_destroyed_iff placed guard).mp owner
  | submit l => exact (owner_submitted_iff guard).mp owner
  | queueInLoop t => exact (owner_queued_iff guard).mp owner
  | destroyLoop l => exact owner
  | endBatch l =>
      exact owner.mono (List.Subset.refl _) (fun l' _ member => endBatch_stack w l l' ▸ member)
        (fun l' _ member => endBatch_stored w l l' ▸ member) rfl
  | userReturn l => exact owner
  | drop t c' => exact owner
  | enterLoop l | poll l active | handleEvent l named | doPendingFunctors l | userSend l c' data
  | userShutdown l c' | userSetHighWaterMarkCallback l c' mark | userRetrieve l c' len
  | userTake l t c' | userGive l t c' | copy t other c' | send t c' data | shutdown t c'
  | queueUser t c' | quit l | destroyServer | destroyMember => exact owned

theorem HeldInRange.letGo {w : World} (range : w.HeldInRange) {a : Action}
    (guard : w.Enabled a) : (w.letGo a).HeldInRange := by
  have thread {t : ThreadId} (inside : w.isThread t) (thread : UserThread) :
      (w.setThread t thread).HeldInRange := by
    refine ⟨range.loops, fun t' outside => ?_⟩
    rw [setThread_threads, Function.update_of_ne]
    · exact range.threads t' outside
    · rintro rfl
      exact outside inside
  cases a with
  | endBatch l | destroyLoop l | userReturn l => exact range.setLoop guard.1 _
  | drop t c => exact thread guard.1 _
  | destroyConnection c =>
      rw [World.letGo]
      split <;> exact ⟨range.loops, range.threads⟩
  | submit l =>
      rw [World.letGo]
      split
      · split
        · exact range
        · exact range.setLoop guard.1 _
      · exact range
  | queueInLoop t =>
      rw [World.letGo]
      split
      · split
        · exact range
        · exact thread guard.1 _
      · exact range
  | run l kernel =>
      rw [World.letGo]
      split
      · rename_i job loop _
        split
        · rw [erasing]
          split
          · exact ⟨range.loops, range.threads⟩
          · exact range
        · have same : (w.setConnections (w.perform l kernel job).connections).HeldInRange :=
            ⟨range.loops, range.threads⟩
          exact same.setLoop guard.1 _
      · exact range
  | enterLoop l | poll l active | handleEvent l named | doPendingFunctors l | userSend l c data
  | userShutdown l c | userSetHighWaterMarkCallback l c mark | userRetrieve l c len
  | userTake l t c | userGive l t c | copy t other c | send t c data | shutdown t c
  | queueUser t c | quit l | destroyServer | destroyMember => exact range

end World

end EduMuduo

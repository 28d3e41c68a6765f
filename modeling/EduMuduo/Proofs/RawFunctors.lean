/-
Module: EduMuduo.Proofs.RawFunctors
Layer: Proofs
Purpose: The functors that capture a connection by raw `this`.  They are queued where the connection
  has an owner: by a thread or a callback that holds a copy, by `sendInLoop`, which is one of them,
  and by `handleWrite`, which runs under the guard of `handleEvent` because the channel is tied.
  So a functor finds an owner as long as no step lets the last one go while the functor waits.
Imports: EduMuduo.Proofs.ClosedConnection, EduMuduo.Proofs.Ownership
Trusted boundary: none
Main exports: tied_of_up, Guarded, guarded, World.KeepsOwner, rawOwned_next_iff,
  raw_functor_finds_owner, raw_functor_without_owner
-/
import EduMuduo.Proofs.ClosedConnection
import EduMuduo.Proofs.Ownership

namespace EduMuduo

open Library

/-! ### Tied channels -/

namespace World

/-- `connectEstablished` ties the channel, and nothing unties it. -/
def Tied (w : World) (c : ConnId) : Prop :=
  (w.conns c).conn.channel.channel.tied = true ∨
    ∀ l, .connectEstablished l ∉ (w.conns c).history

theorem Deed.tied {w : World} {l : LoopId} {kernel : Kernel} {job : Job} {after : TcpConnection}
    {events : List Event} (deed : Deed l kernel (w.conns job.conn).conn job after events)
    (fits : w.KernelFits kernel job) :
    after.channel.channel.tied = true ∨
      after.channel.channel.tied = (w.conns job.conn).conn.channel.channel.tied ∧
        ∀ l', .connectEstablished l' ∉ events := by
  have silent (other : ∀ c, job ≠ .task (.connectEstablished c)) (l' : LoopId) :
      .connectEstablished l' ∉ events := by
    intro member
    cases deed.emits member with
    | established c => exact other c rfl
  cases deed with
  | establish c => exact .inl (by simp [TcpConnection.connectEstablished])
  | destroy c =>
      exact .inr ⟨TcpConnection.connectDestroyed_tied _, silent (by rintro _ ⟨⟩)⟩
  | send c data caller =>
      exact .inr ⟨TcpConnection.sendInLoop_tied _ _ _, silent (by rintro _ ⟨⟩)⟩
  | shutdown c =>
      rw [TcpConnection.shutdownInLoop_eq]
      exact .inr ⟨rfl, silent (by rintro _ ⟨⟩)⟩
  | close callback c input closing =>
      exact .inr ⟨PolledChannel.change_tied _ _, silent (by rintro _ ⟨⟩)⟩
  | write c =>
      exact .inr ⟨TcpConnection.handleWrite_tied _ fits, silent (by rintro _ ⟨⟩)⟩
  | removeChannel c =>
      exact .inr ⟨PolledChannel.remove_tied _, silent (by rintro _ ⟨⟩)⟩
  | remove c | error c | read c input events received | closeCallback c =>
      exact .inr ⟨rfl, silent (by rintro _ ⟨⟩)⟩
  | other job => exact .inr ⟨rfl, fun _ => List.not_mem_nil⟩

theorem Tied.next {w : World} {a : Action} (guard : w.Enabled a) {c : ConnId} (tied : w.Tied c) :
    (w.next a).Tied c := by
  have change := next_change guard c
  rw [Tied] at tied ⊢
  generalize (w.next a).conns c = tracked at change ⊢
  cases change with
  | constructed new l named ioLoop name => exact .inr fun _ => List.not_mem_nil
  | performed l kernel job running current about here fits after events conn log deed =>
      subst about
      rcases deed.tied fits with ties | ⟨same, silent⟩
      · exact .inl ties
      · refine tied.imp same.trans fun before l' member => ?_
        rcases List.mem_append.mp member with old | new
        · exact before l' old
        · exact silent l' new
  | same | exchanged call | marked mark | retrieved len => exact tied

end World

theorem tied_of_up {w : World} (reachable : server.Reachable w) {c : ConnId} (up : w.Up c) :
    (w.conns c).conn.channel.channel.tied = true := by
  have tied : w.Tied c := by
    refine reachable.invariant (I := fun w => w.Tied c) ?_
      fun w a _ tied guard => tied.next guard
    rintro w ⟨name, ipPort, callbacks, ioLoops, users, rfl⟩
    exact .inr fun _ => List.not_mem_nil
  exact tied.resolve_right fun never => never _ up.2

/-! ### Guarded callbacks -/

/-- The connection whose callback a frame is. -/
def Frame.callback? : Frame → Option ConnId
  | .job (.callback _ c) => some c
  | _ => none

/-- Below every callback of a connection stands the end of `handleEvent` with its `guard`. -/
def Guarded : List Frame → Prop
  | [] => True
  | frame :: rest =>
      (∀ c, frame.callback? = some c → .job (.releaseGuard c) ∈ rest) ∧ Guarded rest

theorem Guarded.cons {frame : Frame} {rest : List Frame} (guarded : Guarded rest)
    (other : frame.callback? = none) : Guarded (frame :: rest) := by
  refine ⟨fun c callback => ?_, guarded⟩
  rw [other] at callback
  cases callback

theorem Guarded.append {frames rest : List Frame} (guarded : Guarded rest)
    (others : ∀ frame ∈ frames, frame.callback? = none) : Guarded (frames ++ rest) := by
  induction frames with
  | nil => exact guarded
  | cons frame later inductionHypothesis =>
      refine .cons ?_ (others frame List.mem_cons_self)
      exact inductionHypothesis fun other member => others other (List.mem_cons_of_mem _ member)

theorem Guarded.tail {frame : Frame} {rest : List Frame} (guarded : Guarded (frame :: rest)) :
    Guarded rest := guarded.2

/-- A callback keeps its guard below it. -/
theorem Guarded.mem {frame : Frame} {rest : List Frame} (guarded : Guarded (frame :: rest))
    {c : ConnId} (callback : frame.callback? = some c) : .job (.releaseGuard c) ∈ rest :=
  guarded.1 c callback

theorem guarded_callbacks (c : ConnId) (callbacks : List Channel.Callback) :
    Guarded (callbacks.map (fun callback => Frame.job (.callback callback c)) ++
      [.job (.releaseGuard c)]) := by
  induction callbacks with
  | nil => exact Guarded.cons trivial rfl
  | cons callback rest inductionHypothesis =>
      refine ⟨fun c' same => ?_, inductionHypothesis⟩
      obtain rfl : c = c' := Option.some.inj same
      exact List.mem_append_right _ (List.mem_singleton_self _)

theorem Frame.callback?_of_idle {frame : Frame} (idle : frame.job? = none) :
    frame.callback? = none := by
  cases frame with
  | job code => cases idle
  | user held | destroyServer | quitThread l | joinThread l | destroyAcceptor => rfl

namespace World

theorem Leaves.callback? {c : ConnId} {frame : Frame} (leaves : Leaves c frame) :
    frame.callback? = none := by
  cases leaves <;> rfl

end World

theorem guarded_next {w : World} (reachable : server.Reachable w) {a : Action}
    (guard : w.Enabled a) {l : LoopId} (guarded : Guarded (w.loops l).stack) :
    Guarded ((w.next a).loops l).stack := by
  have change := World.next_stack guard l
  generalize ((w.next a).loops l).stack = stack at change ⊢
  cases change with
  | same => exact guarded
  | dispatched named c revents running empty active =>
      have up := (((placed reachable).loops l).active c revents active).1
      rw [World.dispatch, if_pos (tied_of_up reachable up)]
      split
      · exact guarded_callbacks c _
      · trivial
  | ran kernel job loop running fetched =>
      refine Guarded.append ?_ fun frame left => (w.perform_leaves l kernel job frame left).callback?
      rcases Loop.fetch_stack fetched with top | ⟨_, after, _⟩
      · rw [top] at guarded
        exact guarded.tail
      · rw [after]
        trivial
  | called task idle pushed => exact guarded.cons rfl
  | submitted task rest running top | returned held rest running top =>
      rw [top] at guarded
      exact guarded.tail
  | took t c held rest running top =>
      rw [top] at guarded
      exact guarded.tail.cons rfl
  | destroying running base => exact guarded.cons rfl
  | member frame frames rest running top plain others =>
      rw [top] at guarded
      exact guarded.tail.append fun other member =>
        Frame.callback?_of_idle (others other member).1

theorem guarded {w : World} (reachable : server.Reachable w) (l : LoopId) :
    Guarded (w.loops l).stack := by
  refine reachable.invariant (I := fun w => Guarded (w.loops l).stack) ?_
    fun w a before guarded guard => guarded_next before guard guarded
  rintro w ⟨name, ipPort, callbacks, ioLoops, users, rfl⟩
  trivial

/-! ### Functors that find an owner -/

/-- The functors that are called on the loop's stack, and those in its queue as long as it
exists. -/
def Loop.living (loop : Loop) : List Task :=
  loop.stack.filterMap Frame.task? ++ if loop.destroyed then [] else loop.functors.waiting

namespace World

/-- The functor is called, it is in the queue of a loop that exists, or a thread is queueing it. -/
inductive Lives (w : World) (task : Task) : Prop where
  | called (l : LoopId) (onStack : .job (.task task) ∈ (w.loops l).stack) : Lives w task
  | queued (l : LoopId) (alive : (w.loops l).destroyed = false)
      (waits : task ∈ (w.loops l).functors.waiting) : Lives w task
  | queueing (t : ThreadId) (calling : (w.threads t).calling = some task) : Lives w task

theorem Lives.waits {w : World} {task : Task} (lives : w.Lives task) : w.Waits task := by
  cases lives with
  | called l onStack => exact .inl ⟨l, mem_tasks_of_onStack onStack⟩
  | queued l alive waits => exact .inl ⟨l, List.mem_append_right _ waits⟩
  | queueing t calling => exact .inr ⟨t, calling⟩

theorem lives_of_living {w : World} {l : LoopId} {task : Task}
    (member : task ∈ (w.loops l).living) : w.Lives task := by
  rcases List.mem_append.mp member with called | queued
  · obtain ⟨frame, onStack, found⟩ := List.mem_filterMap.mp called
    unfold Frame.task? at found
    split at found <;> cases found
    exact .called l onStack
  · split at queued
    · exact absurd queued List.not_mem_nil
    · rename_i alive
      exact .queued l (Bool.not_eq_true _ ▸ alive) queued

/-- A functor with the raw `this` of the connection is called, queued or about to be queued. -/
def rawWaiting (w : World) (c : ConnId) : Bool :=
  (List.range (w.server.ioLoops + 1)).any (fun l =>
    (w.loops l).living.any fun task => task.raw && task.conn == c) ||
  (List.range w.users).any fun t =>
    (w.threads t).calling.any fun task => task.raw && task.conn == c

theorem rawWaiting_iff {w : World} (inRange : w.InRange) (placed : w.Placed) {c : ConnId} :
    w.rawWaiting c = true ↔ ∃ task, w.Lives task ∧ task.raw = true ∧ task.conn = c := by
  have about (task : Task) :
      (task.raw && task.conn == c) = true ↔ task.raw = true ∧ task.conn = c := by simp
  have onLoop {l : LoopId} {task : Task} (member : task ∈ (w.loops l).living)
      (matching : task.raw = true ∧ task.conn = c) : w.rawWaiting c = true := by
    have inside : w.isLoop l := by
      by_contra outside
      rw [Loop.living, inRange.stack l outside, inRange.waiting placed outside, ite_self]
        at member
      exact absurd member List.not_mem_nil
    rw [rawWaiting, Bool.or_eq_true]
    refine .inl (List.any_eq_true.mpr ⟨l, List.mem_range.mpr (Nat.lt_succ_of_le inside), ?_⟩)
    exact List.any_eq_true.mpr ⟨task, member, (about task).mpr matching⟩
  constructor
  · rw [rawWaiting, Bool.or_eq_true]
    rintro (onLoop | onThread)
    · obtain ⟨l, _, found⟩ := List.any_eq_true.mp onLoop
      obtain ⟨task, member, matching⟩ := List.any_eq_true.mp found
      exact ⟨task, lives_of_living member, (about task).mp matching⟩
    · obtain ⟨t, _, found⟩ := List.any_eq_true.mp onThread
      obtain ⟨task, calling, matching⟩ := (Option.any_eq_true _ _).mp found
      exact ⟨task, .queueing t calling, (about task).mp matching⟩
  · rintro ⟨task, lives, matching⟩
    cases lives with
    | called l onStack =>
        refine onLoop (l := l) (List.mem_append_left _ ?_) matching
        exact List.mem_filterMap.mpr ⟨_, onStack, rfl⟩
    | queued l alive waits =>
        refine onLoop (l := l) (List.mem_append_right _ ?_) matching
        rwa [alive, if_neg Bool.false_ne_true]
    | queueing t calling =>
        have inside : w.isThread t := by
          by_contra outside
          rw [inRange.threads t outside] at calling
          cases calling
        rw [rawWaiting, Bool.or_eq_true]
        refine .inr (List.any_eq_true.mpr ⟨t, List.mem_range.mpr inside, ?_⟩)
        exact (Option.any_eq_true _ _).mpr ⟨task, calling, (about task).mpr matching⟩

/-- The world without the functors that go with a loop when it is destroyed. -/
def spared (w : World) : Action → World
  | .destroyLoop l => w.next (.destroyLoop l)
  | _ => w

/-- While a functor with the raw `this` of a connection waits, and does not go itself, the action
does not let the last owner of that connection go. -/
def KeepsOwner (w : World) (a : Action) : Prop :=
  ∀ c < w.created, (w.spared a).rawWaiting c = true → w.owned c = true →
    (w.letGo a).owned c = true

instance (w : World) (a : Action) : Decidable (w.KeepsOwner a) :=
  inferInstanceAs (Decidable (∀ c < w.created, _ → _ → _))

/-- The functors with a raw `this` have owners. -/
def RawOwned (w : World) : Prop :=
  ∀ task, w.Lives task → task.raw = true → w.Owner task.conn

/-- User code on a loop thread owns the connections that it uses. -/
theorem Owner.of_copies {w : World} {l : LoopId} {c : ConnId} (member : c ∈ (w.loops l).copies) :
    w.Owner c := by
  obtain ⟨held, rest, top, atHand⟩ := copies_eq member
  exact .frame l (.user held) (by rw [top]; exact List.mem_cons_self) atHand

/-- The functor that a loop comes to next lives. -/
theorem lives_of_current {w : World} (placed : w.Placed) {l : LoopId} {task : Task}
    (current : w.current l = some (.task task)) : w.Lives task := by
  obtain ⟨loop, fetched⟩ := exists_fetch current
  generalize found : Job.task task = job at fetched
  cases Loop.fetched fetched with
  | called _ rest top =>
      subst found
      refine .called l ?_
      rw [top]
      exact List.mem_cons_self
  | functor first rest bottom draining next =>
      cases found
      refine .queued l (placed.running (by rw [draining]; decide)) ?_
      rw [BatchQueue.waiting, next]
      exact List.mem_cons_self

theorem functor_conn (c : ConnId) (kind : Queued) : (functor c kind).conn = c := by
  cases kind <;> rfl

/-- A write callback leaves the guard of its `handleEvent` on the stack. -/
theorem Owner.of_guard {w : World} {l : LoopId} (guarded : Guarded (w.loops l).stack)
    (kernel : Kernel) {callback : Channel.Callback} {c : ConnId}
    (current : w.current l = some (.callback callback c)) : (w.next (.run l kernel)).Owner c := by
  obtain ⟨loop, fetched⟩ := exists_fetch current
  rcases Loop.fetch_stack fetched with top | ⟨_, _, task, same⟩
  · rw [top] at guarded
    exact .run_frame fetched (List.mem_append_right _ (guarded.mem rfl))
      (List.mem_singleton_self _)
  · cases same

/-- A functor with a raw `this` that lives behind a step did so before, and did not go with a loop,
or the step has put it there. -/
theorem Lives.of_next {w : World} (placed : w.Placed) {a : Action} (guard : w.Enabled a)
    {task : Task} (raw : task.raw = true) (lives : (w.next a).Lives task) :
    (w.Lives task ∧ (w.spared a).Lives task) ∨ (∃ l, Pushed w a l task) ∨
      (∃ l, Appended w a l task) ∨ ∃ t, Called w a t task := by
  have old (before : w.Lives task) : w.Lives task ∧ (w.spared a).Lives task := by
    cases a with
    | destroyLoop l => exact ⟨before, lives⟩
    | _ => exact ⟨before, before⟩
  cases lives with
  | called l onStack =>
      rcases mem_stack_next guard onStack with still | new
      · exact .inl (old (.called l still))
      · cases new with
        | dispatched named running c _ dispatches => cases dispatches
        | left kernel job running current _ left =>
            cases w.perform_leaves l kernel job _ left
            cases raw
        | called _ idle pushed => exact .inr (.inl ⟨l, pushed⟩)
        | member running _ plain => cases plain
  | queued l alive waits =>
      have before : (w.loops l).destroyed = false := by
        rcases next_destroyed guard l with same | ⟨_, gone⟩
        · exact same.symm.trans alive
        · exact absurd (alive.symm.trans gone) Bool.false_ne_true
      rcases mem_waiting_next placed guard waits with still | appended
      · exact .inl (old (.queued l before still))
      · exact .inr (.inr (.inl ⟨l, appended⟩))
  | queueing t calling =>
      rcases next_calling guard calling with ⟨still, _⟩ | called
      · exact .inl (old (.queueing t still))
      · exact .inr (.inr (.inr ⟨t, called⟩))

/-- A functor that lives is run, or it goes on living, or it is handed over to a loop. -/
theorem Lives.next {w : World} (placed : w.Placed) {a : Action} (guard : w.Enabled a)
    {task : Task} (lives : (w.spared a).Lives task) :
    (∃ l kernel, a = .run l kernel ∧ w.current l = some (.task task)) ∨ (w.next a).Lives task ∨
      (∃ l, a = .submit l ∧ w.submitted l = some task) ∨
        ∃ t, a = .queueInLoop t ∧ (w.threads t).calling = some task := by
  by_cases ends : ∃ l, a = .destroyLoop l
  · obtain ⟨l, rfl⟩ := ends
    exact .inr (.inl lives)
  have same : w.spared a = w := by
    cases a with
    | destroyLoop l => exact absurd ⟨l, rfl⟩ ends
    | _ => rfl
  rw [same] at lives
  cases lives with
  | called l onStack =>
      by_cases taken : w.TakesUp a l (.task task)
      · by_cases here : w.target task = l
        · obtain ⟨⟨kernel, running⟩, current⟩ := taken.runs guard here
          exact .inl ⟨l, kernel, running, current⟩
        · rcases taken.step with ⟨kernel, rfl⟩ | rfl
          · obtain ⟨rest, top⟩ := List.head?_eq_some_iff.mp taken.top
            refine .inl ⟨l, kernel, rfl, ?_⟩
            rw [current, Loop.fetch, top]
            rfl
          · refine .inr (.inr (.inl ⟨l, rfl, ?_⟩))
            obtain ⟨rest, top⟩ := List.head?_eq_some_iff.mp taken.top
            rw [submitted, top]
            exact if_neg here
      · exact .inr (.inl (.called l (stacked_next guard onStack taken)))
  | queued l alive waits =>
      by_cases called : w.CallsNext a l task
      · obtain ⟨⟨kernel, rfl⟩, bottom, next⟩ := called
        obtain ⟨job, loop, fetched, _⟩ := enabled_run guard
        refine .inl ⟨l, kernel, rfl, ?_⟩
        rw [current_of_fetch fetched]
        cases Loop.fetched fetched with
        | called _ rest top =>
            rw [bottom] at top
            cases top
        | functor first rest _ draining found =>
            rw [found] at next
            cases next
            rfl
      · have still : ((w.next a).loops l).destroyed = false :=
          ((next_destroyed guard l).resolve_right fun gone => ends ⟨l, gone.1⟩).trans alive
        exact .inr (.inl (.queued l still (waiting_next placed guard waits called)))
  | queueing t calling =>
      have change := next_thread guard t
      generalize after : (w.next a).threads t = thread at change
      cases change with
      | same idle | gained c source | dropped c running =>
          exact .inr (.inl (.queueing t (by rw [after]; exact calling)))
      | called other free called =>
          rw [free] at calling
          cases calling
      | queued other running _ => exact .inr (.inr (.inr ⟨t, running, calling⟩))

/-- A raw `this` is no copy. -/
theorem held_of_raw {task : Task} (raw : task.raw = true) : task.held = [] := by
  rw [Task.held, if_pos raw]

theorem handsOn_of_raw {w : World} {task : Task} (raw : task.raw = true) :
    w.handsOn (.task task) = false := by
  cases task with
  | connectEstablished c | connectDestroyed c | removeConnectionInLoop c | user c => cases raw
  | sendInLoop c data caller | shutdownInLoop c | writeCompleteCallback c
  | highWaterMarkCallback c total => rfl

end World

section Step

open World

variable {w : World} (reachable : server.Reachable w) (owned : w.RawOwned) {a : Action}
  (guard : w.Enabled a)

include reachable guard

theorem reachable_spared : server.Reachable (w.spared a) := by
  cases a with
  | destroyLoop l => exact reachable_next reachable guard
  | _ => exact reachable

theorem rawWaiting_spared_iff {c : ConnId} : (w.spared a).rawWaiting c = true ↔
    ∃ task, (w.spared a).Lives task ∧ task.raw = true ∧ task.conn = c :=
  have reachable' := reachable_spared reachable guard
  rawWaiting_iff (inRange reachable') (placed reachable')

include owned

theorem rawOwned_next (keeps : w.KeepsOwner a) : (w.next a).RawOwned := by
  have placed := placed reachable
  have inRange := inRange reachable
  -- a functor that has waited already
  have waited {task : Task} (lives : w.Lives task) (spared : (w.spared a).Lives task)
      (raw : task.raw = true) : (w.next a).Owner task.conn :=
    .next placed guard (.of_owned (keeps _ (placed.known_of_waits lives.waits)
      ((rawWaiting_spared_iff reachable guard).mpr ⟨task, spared, raw, rfl⟩)
      ((inRange.held placed).owned_iff.mpr (owned task lives raw))))
  intro task lives raw
  rcases lives.of_next placed guard raw with
    ⟨lives, spared⟩ | ⟨l, pushed⟩ | ⟨l, appended⟩ | ⟨t, called⟩
  · exact waited lives spared raw
  · cases pushed with
    | sendInLoop c data running connected =>
        subst running
        exact .stays placed guard rfl (.of_copies guard.2)
    | shutdownInLoop c running connected =>
        subst running
        exact .stays placed guard rfl (.of_copies guard.2)
    | connectEstablished accepting => cases raw
    | removeConnectionInLoop kernel c running current => cases raw
    | connectDestroyed c running base here => cases raw
  · cases appended with
    | byJob l' kernel job running current task queued target =>
        subst running
        rcases (w.perform_calls l' kernel job).of_queued queued with
          ⟨kind, rfl, notifies⟩ | ⟨c, rfl, _⟩ | ⟨c, rfl, _⟩
        · rw [functor_conn]
          unfold Job.notifies at notifies
          split at notifies
          · have lives := lives_of_current placed current
            exact waited lives lives rfl
          · exact .of_guard (guarded reachable l') kernel current
          · cases notifies
        · cases raw
        · cases raw
    | submitted l' task running top target =>
        subst running
        have lives : w.Lives task := .called l' (submitted_onStack top)
        exact waited lives lives raw
    | byThread t task running calling target =>
        subst running
        exact waited (.queueing t calling) (.queueing t calling) raw
    | connectEstablished l' accepting => cases raw
    | connectDestroyed c running here => cases raw
  · cases called with
    | sendInLoop c data running connected =>
        subst running
        exact .stays placed guard rfl (.copy t guard.2.2)
    | shutdownInLoop c running connected =>
        subst running
        exact .stays placed guard rfl (.copy t guard.2.2)
    | user c running => cases raw

/-- A step that lets the last owner go leaves a functor behind that has none. -/
theorem rawOwned_next_iff : (w.next a).RawOwned ↔ w.KeepsOwner a := by
  refine ⟨fun after c known waiting found => ?_, rawOwned_next reachable owned guard⟩
  have placed := placed reachable
  have range := (inRange reachable).held placed
  obtain ⟨task, lives, raw, rfl⟩ := (rawWaiting_spared_iff reachable guard).mp waiting
  have owner := range.owned_iff.mp found
  have bare : task.conn ∉ task.held := by
    rw [held_of_raw raw]
    exact List.not_mem_nil
  rw [(range.letGo guard).owned_iff]
  rcases lives.next placed guard with
    ⟨l, kernel, rfl, current⟩ | still | ⟨l, rfl, submitted⟩ | ⟨t, rfl, calling⟩
  · -- the functor that runs has no copy to let go, and so with those that are handed over
    obtain ⟨loop, fetched⟩ := exists_fetch current
    simp only [letGo, fetched, handsOn_of_raw raw]
    exact owner.without_job kernel fetched (held_of_raw raw)
  · exact (Owner.next_iff placed guard owner).mp (after task still raw)
  · obtain ⟨rest, top⟩ := List.head?_eq_some_iff.mp (submitted_eq submitted).1
    simp only [letGo, submitted]
    split
    · exact owner
    · exact ((owner_pop_iff top).mp owner).resolve_right bare
  · simp only [letGo, calling]
    split
    · exact owner
    · exact ((owner_call_iff calling).mp owner).resolve_right bare

end Step

theorem rawOwned {w : World} (reachable : (server.restrict World.KeepsOwner).Reachable w) :
    w.RawOwned := by
  refine reachable.invariant (I := World.RawOwned) ?_
    fun w a before owned guard =>
      (rawOwned_next_iff before.of_restrict owned guard.1).mpr guard.2
  rintro w ⟨name, ipPort, callbacks, ioLoops, users, rfl⟩ task lives
  cases lives with
  | called l onStack => exact absurd onStack List.not_mem_nil
  | queued l alive waits => exact absurd waits List.not_mem_nil
  | queueing t calling => cases calling

/-- In every run whose steps keep an owner while a functor with a raw `this` waits, every such
functor runs on an owned connection. -/
theorem raw_functor_finds_owner {w : World}
    (reachable : (server.restrict World.KeepsOwner).Reachable w) {l : LoopId} {task : Task}
    (current : w.current l = some (.task task)) (raw : task.raw = true) :
    w.owned task.conn = true := by
  have lives := World.lives_of_current (placed reachable.of_restrict) current
  have range := (inRange reachable.of_restrict).held (placed reachable.of_restrict)
  exact range.owned_iff.mpr (rawOwned reachable task lives raw)

/-- A thread's `send` has passed its test before the peer closes the connection, and pushes its
functor when the batch of `connectDestroyed` is already taken. -/
def demoLateSend : List Action :=
  demoOpening ++ .send 0 0 [1] :: demoClosing ++
    [.userReturn 1, .run 1 demoKernel, .run 1 demoKernel, .doPendingFunctors 1, .endBatch 1,
      .doPendingFunctors 0, .run 0 demoKernel, .endBatch 0, .poll 1 [], .doPendingFunctors 1,
      .queueInLoop 0]

/-- `connectDestroyed` runs, its batch is released, and the next batch begins with `send`'s
functor. -/
def demoNextBatch : List Action :=
  [.run 1 demoKernel, .run 1 demoKernel, .endBatch 1, .poll 1 [], .doPendingFunctors 1]

/-- The hypotheses are met where the thread keeps its copy. -/
theorem raw_functor_finds_owner_demo :
    (server.exec (demoServer 1 1) (demoLateSend ++ demoNextBatch)).owned 0 = true := by
  have admitted : (server.restrict World.KeepsOwner).Admits (demoServer 1 1)
      (demoLateSend ++ demoNextBatch) := by decide +kernel
  have reachable := admitted.reachable (demoServer_initial 1 1)
  rw [Machine.restrict_exec] at reachable
  have current : (server.exec (demoServer 1 1) (demoLateSend ++ demoNextBatch)).current 1 =
      some (.task (.sendInLoop 0 [1] (.thread 0))) := by decide +kernel
  exact raw_functor_finds_owner reachable current rfl

/-- The thread drops its copy behind `send`, and the batch of `connectDestroyed` was the last
owner. -/
theorem raw_functor_without_owner :
    ¬ ∀ (w : World) (l : LoopId) (task : Task), server.Reachable w →
      w.current l = some (.task task) → task.raw = true → w.owned task.conn = true := by
  intro claim
  have admitted : server.Admits (demoServer 1 1)
      (demoLateSend ++ .drop 0 0 :: demoNextBatch) := by decide +kernel
  have found := claim _ 1 (.sendInLoop 0 [1] (.thread 0))
    (admitted.reachable (demoServer_initial 1 1)) (by decide +kernel) rfl
  revert found
  decide +kernel

end EduMuduo

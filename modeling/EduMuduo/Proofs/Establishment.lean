/-
Module: EduMuduo.Proofs.Establishment
Layer: Proofs
Purpose: `connectEstablished` runs at most once for each connection.  Its functor is a token: there
  is one for a new connection, no step copies it, and running it spends it.  The module also says
  which job writes which event, and so how a history grows.
Imports: EduMuduo.Proofs.TaskFlow
Trusted boundary: none
Main exports: World.Emits, World.Deed.emits, World.mem_next_history, World.EstablishToken,
  establishToken,
  World.not_up_of_current
-/
import EduMuduo.Proofs.TaskFlow

namespace EduMuduo

open Library

namespace World

/-! ### How a history grows -/

/-- The events that a job on loop `l` can write. -/
inductive Emits (l : LoopId) : Job → Event → Prop where
  | established (c : ConnId) :
      Emits l (.task (.connectEstablished c)) (.connectEstablished l)
  | announcedUp (c : ConnId) :
      Emits l (.task (.connectEstablished c)) (.connectionCallback true)
  | handler (callback : Channel.Callback) (c : ConnId) :
      Emits l (.callback callback c) (.handler l callback)
  | closed (callback : Channel.Callback) (c : ConnId)
      (closing : callback = .close ∨ callback = .read) : Emits l (.callback callback c) .handleClose
  | announcedDown (callback : Channel.Callback) (c : ConnId)
      (closing : callback = .close ∨ callback = .read) :
      Emits l (.callback callback c) (.connectionCallback false)
  | message (c : ConnId) : Emits l (.callback .read c) .messageCallback
  | closeCallback (c : ConnId) : Emits l (.closeCallback c) .closeCallback
  | removed (c : ConnId) : Emits l (.task (.removeConnectionInLoop c)) .removeConnectionInLoop
  | destroyed (c : ConnId) : Emits l (.task (.connectDestroyed c)) (.connectDestroyed l)
  | announcedDestroyed (c : ConnId) :
      Emits l (.task (.connectDestroyed c)) (.connectionCallback false)
  | returned (c : ConnId) : Emits l (.removeChannel c) .connectDestroyedReturned

/-- A list that is announced or empty has nothing but the announcement. -/
theorem eq_of_mem_announced {announce : Bool} {event announcement : Event}
    (member : event ∈ if announce then [announcement] else []) : event = announcement := by
  split at member
  · exact List.mem_singleton.mp member
  · exact absurd member List.not_mem_nil

theorem Deed.emits {l : LoopId} {kernel : Kernel} {conn after : TcpConnection} {job : Job}
    {events : List Event} (deed : Deed l kernel conn job after events) {event : Event}
    (member : event ∈ events) : Emits l job event := by
  cases deed with
  | establish c =>
      rcases List.mem_cons.mp member with rfl | announced
      · exact .established c
      · exact eq_of_mem_announced announced ▸ .announcedUp c
  | destroy c =>
      rcases List.mem_cons.mp member with rfl | announced
      · exact .destroyed c
      · exact eq_of_mem_announced announced ▸ .announcedDestroyed c
  | remove c => exact List.mem_singleton.mp member ▸ .removed c
  | send c data caller => exact absurd member List.not_mem_nil
  | shutdown c => exact absurd member List.not_mem_nil
  | other job => exact absurd member List.not_mem_nil
  | close callback c input closing =>
      have closes : callback = .close ∨ callback = .read := closing.imp_right And.left
      rcases List.mem_cons.mp member with rfl | member
      · exact .handler callback c
      · rcases List.mem_cons.mp member with rfl | announced
        · exact .closed callback c closes
        · exact eq_of_mem_announced announced ▸ .announcedDown callback c closes
  | error c => exact List.mem_singleton.mp member ▸ .handler .error c
  | read c input events received =>
      rcases List.mem_cons.mp member with rfl | member
      · exact .handler .read c
      · rcases received with rfl | ⟨rfl, _⟩
        · exact absurd member List.not_mem_nil
        · exact List.mem_singleton.mp member ▸ .message c
  | write c => exact List.mem_singleton.mp member ▸ .handler .write c
  | closeCallback c => exact List.mem_singleton.mp member ▸ .closeCallback c
  | removeChannel c => exact List.mem_singleton.mp member ▸ .returned c

/-- A job writes no event twice. -/
theorem Deed.count_le_one {l : LoopId} {kernel : Kernel} {conn after : TcpConnection} {job : Job}
    {events : List Event} (deed : Deed l kernel conn job after events) (event : Event) :
    events.count event ≤ 1 := by
  have distinct : events.Nodup := by
    cases deed with
    | establish c | destroy c | close callback c input closing => split <;> simp
    | read c input events received => rcases received with rfl | ⟨rfl, _⟩ <;> simp
    | remove c | send c data caller | shutdown c | other job | error c | write c
    | closeCallback c | removeChannel c => simp
  exact List.nodup_iff_count.mp distinct event

/-- An event of the later history is old or was written by the job that ran. -/
theorem mem_next_history {w : World} {a : Action} (guard : w.Enabled a) {c : ConnId}
    {event : Event} (member : event ∈ ((w.next a).conns c).history) (new : c ≠ w.created) :
    event ∈ (w.conns c).history ∨ ∃ l kernel job, a = .run l kernel ∧ w.current l = some job ∧
      job.conn = c ∧ w.RunsHere l job ∧ Emits l job event := by
  generalize after : (w.next a).conns c = tracked at member
  have change := next_change guard c
  rw [after] at change
  cases change with
  | same => exact .inl member
  | constructed same => exact absurd same new
  | performed l kernel job running current about here fits after events conn log deed =>
      rcases List.mem_append.mp member with old | fresh
      · exact .inl old
      · exact .inr ⟨l, kernel, job, running, current, about, here, deed.emits fresh⟩
  | exchanged call => exact .inl member
  | marked mark => exact .inl member
  | retrieved len => exact .inl member

/-! ### Facts at hand in every step -/

theorem runInLoop_created (w : World) (l ioLoop : LoopId) (task : Task) :
    (w.runInLoop l ioLoop task).created = w.created := by
  rw [runInLoop]
  split <;> rfl

/-- Only accepting constructs a connection. -/
theorem next_created (w : World) (a : Action) :
    (w.next a).created = w.created ∨
      (∃ l, a = .handleEvent l true) ∧ (w.next a).created = w.created + 1 := by
  cases a with
  | handleEvent l named =>
      rw [next]
      split
      · exact .inl rfl
      · rename_i first rest split
        cases first with
        | channel c revents => exact .inl rfl
        | acceptor =>
            rw [handleEvent]
            split
            · exact .inl rfl
            · cases named with
              | false => exact .inl rfl
              | true =>
                  refine .inr ⟨⟨l, rfl⟩, ?_⟩
                  simp only [newConnection, if_true, runInLoop_created]
                  rfl
  | run l kernel | submit l | userSend l c data | queueInLoop t | send t c data =>
      left
      rw [next]
      split <;> rfl
  | userShutdown l c | shutdown t c =>
      left
      simp only [next]
      split <;> rfl
  | destroyConnection c => exact .inl (runInLoop_created _ _ _ _)
  | destroyMember =>
      left
      rw [next, destroyMember]
      split <;> rfl
  | enterLoop l | poll l active | doPendingFunctors l | endBatch l | destroyLoop l
  | userSetHighWaterMarkCallback l c mark | userRetrieve l c len | userTake l t c | userGive l t c
  | userReturn l | copy t other c | drop t c | queueUser t c | quit l | destroyServer =>
      exact .inl rfl

/-- A connection that a step makes known is the one it constructs. -/
theorem eq_created_of_next {w : World} {a : Action} {c : ConnId} (unknown : w.created ≤ c)
    (known : c < (w.next a).created) : c = w.created := by
  refine Nat.le_antisymm ?_ unknown
  rcases next_created w a with same | ⟨_, one⟩
  · rw [same] at known
    exact Nat.le_of_lt known
  · rw [one] at known
    exact Nat.le_of_lt_succ known

theorem Placed.current_ok {w : World} (placed : w.Placed) {l : LoopId} {job : Job}
    (current : w.current l = some job) : w.JobOk l job := by
  obtain ⟨loop, fetched⟩ := exists_fetch current
  exact ((placed.loops l).fetch fetched).1

/-- The functor that runs next is one that the loop still has to run. -/
theorem mem_tasks_of_current {w : World} {l : LoopId} {task : Task}
    (current : w.current l = some (.task task)) : task ∈ (w.loops l).tasks := by
  obtain ⟨loop, fetched⟩ := exists_fetch current
  rw [Loop.tasks_fetch fetched]
  exact List.mem_append_left _ (List.mem_singleton_self _)

theorem mem_tasks_of_onStack {w : World} {l : LoopId} {task : Task}
    (onStack : .job (.task task) ∈ (w.loops l).stack) : task ∈ (w.loops l).tasks :=
  List.mem_append_left _ (List.mem_filterMap.mpr ⟨_, onStack, rfl⟩)

/-- A functor of a loop is known, and a hop stands on its own loop. -/
theorem Placed.task_ok {w : World} (placed : w.Placed) {l : LoopId} {task : Task}
    (member : task ∈ (w.loops l).tasks) :
    w.TaskOk task ∧ (task.hop = true → w.target task = l) := by
  rcases List.mem_append.mp member with called | waiting
  · obtain ⟨frame, onStack, called⟩ := List.mem_filterMap.mp called
    have ok := (placed.loops l).stack frame onStack
    unfold Frame.task? at called
    split at called
    · cases called
      exact ok
    all_goals cases called
  · obtain ⟨ok, here⟩ := (placed.loops l).waiting task waiting
    exact ⟨ok, fun _ => here⟩

/-- A hop is called on its own loop, and never handed to another one. -/
theorem Placed.submitted_hop {w : World} (placed : w.Placed) {l : LoopId} {task : Task}
    (top : w.submitted l = some task) : task.hop = false := by
  by_contra hop
  have ok := (placed.loops l).stack _ (submitted_onStack top)
  exact (submitted_eq top).2 (ok.2 (by simpa using hop))

/-- A job of a connection acts on a constructed connection. -/
theorem JobOk.known {w : World} {l : LoopId} {job : Job} (ok : w.JobOk l job) :
    job.conn < w.created := by
  cases job with
  | task task => exact ok.1.1
  | callback callback c => exact ok.1.1
  | releaseGuard c => exact ok.1.1
  | closeCallback c => exact ok.1.1
  | removeChannel c => exact ok.1

/-- A connection that is being constructed has no history. -/
theorem Placed.next_history_new {w : World} (placed : w.Placed) {a : Action}
    (guard : w.Enabled a) : ((w.next a).conns w.created).history = [] := by
  have unborn := (placed.conns w.created).unborn (Nat.le_refl _)
  generalize after : (w.next a).conns w.created = tracked
  have change := next_change guard w.created
  rw [after] at change
  cases change with
  | same => exact unborn
  | constructed same => rfl
  | performed l kernel job running current about here fits after events conn log deed =>
      exact absurd about (Nat.ne_of_lt (placed.current_ok current).known)
  | exchanged call => exact unborn
  | marked mark => exact unborn
  | retrieved len => exact unborn

/-- Nor has one that is not constructed before the step. -/
theorem Placed.next_history_unknown {w : World} (placed : w.Placed) {a : Action}
    (guard : w.Enabled a) {c : ConnId} (unknown : w.created ≤ c) :
    ((w.next a).conns c).history = [] := by
  rcases Nat.eq_or_lt_of_le unknown with new | beyond
  · exact new ▸ placed.next_history_new guard
  · refine ((placed.next guard).conns c).unborn ?_
    rcases next_created w a with same | ⟨_, more⟩
    · exact same ▸ unknown
    · exact more ▸ beyond

/-- Only jobs write into the history of a connection. -/
theorem next_history_of_ne {w : World} {a : Action} (guard : w.Enabled a)
    (idle : ∀ l kernel, a ≠ .run l kernel) {c : ConnId} (known : c < w.created) :
    ((w.next a).conns c).history = (w.conns c).history := by
  have change := next_change guard c
  generalize (w.next a).conns c = tracked at change ⊢
  cases change with
  | same => rfl
  | constructed new => exact absurd new (Nat.ne_of_lt known)
  | performed l kernel job running => exact absurd running (idle l kernel)
  | exchanged call => rfl
  | marked mark => rfl
  | retrieved len => rfl

/-- The job that a loop thread can run. -/
theorem enabled_run {w : World} {l : LoopId} {kernel : Kernel}
    (guard : w.Enabled (.run l kernel)) :
    ∃ job loop, (w.loops l).fetch = some (job, loop) ∧ w.current l = some job ∧
      w.RunsHere l job ∧ w.KernelFits kernel job := by
  obtain ⟨_, job, current, here, fits⟩ := guard
  obtain ⟨loop, fetched⟩ := exists_fetch current
  exact ⟨job, loop, fetched, current, here, fits⟩

/-- What running a job does to the connections. -/
theorem run_conns {w : World} {l : LoopId} {kernel : Kernel} {job : Job} {loop : Loop}
    (fetched : (w.loops l).fetch = some (job, loop)) :
    (w.next (.run l kernel)).conns = Function.update w.conns job.conn
      ⟨(w.perform l kernel job).conn,
        (w.conns job.conn).history ++ (w.perform l kernel job).events⟩ := by
  simp only [next, fetched]
  rfl

/-- A job that has run has written its events. -/
theorem mem_run_history {w : World} {l : LoopId} {kernel : Kernel} {job : Job}
    (guard : w.Enabled (.run l kernel)) (current : w.current l = some job) {event : Event}
    (written : event ∈ (w.perform l kernel job).events) :
    event ∈ ((w.next (.run l kernel)).conns job.conn).history := by
  obtain ⟨found, loop, fetched, same, _⟩ := enabled_run guard
  obtain rfl := Option.some.inj (current.symm.trans same)
  rw [run_conns fetched, Function.update_self]
  exact List.mem_append_right _ written

/-- A step extends the world. -/
theorem Placed.next_extends {w : World} (placed : w.Placed) {a : Action} (guard : w.Enabled a) :
    w.Extends (w.next a) := by
  have created : w.created ≤ (w.next a).created := by
    rcases next_created w a with same | ⟨_, more⟩ <;> omega
  have each : ∀ c < w.created,
      ((w.next a).conns c).conn.loop = (w.conns c).conn.loop ∧
        ((w.next a).conns c).conn.name = (w.conns c).conn.name ∧
          ∀ event ∈ (w.conns c).history, event ∈ ((w.next a).conns c).history := by
    intro c known
    generalize after : (w.next a).conns c = tracked
    have change := next_change guard c
    rw [after] at change
    cases change with
    | same => exact ⟨rfl, rfl, fun _ member => member⟩
    | constructed same => exact absurd same (Nat.ne_of_lt known)
    | performed l kernel job running current about here fits after events conn log deed =>
        subst about conn
        have ok := perform_ok placed (placed.current_ok current) here fits
        exact ⟨ok.loop, ok.name, fun _ member => List.mem_append_left _ member⟩
    | exchanged call => exact ⟨rfl, rfl, fun _ member => member⟩
    | marked mark => exact ⟨rfl, rfl, fun _ member => member⟩
    | retrieved len => exact ⟨rfl, rfl, fun _ member => member⟩
  exact ⟨created, fun c known => (each c known).1, fun c known => (each c known).2.1,
    fun c known => (each c known).2.2⟩

/-! ### The token -/

/-- No loop has two functors for one establishment, and none has one that was spent. -/
structure EstablishToken (w : World) : Prop where
  once : ∀ c l, (w.loops l).tasks.count (.connectEstablished c) ≤ 1
  unspent : ∀ c l, .connectEstablished c ∈ (w.loops l).tasks → ¬ w.Up c

/-- Only `newConnection` adds the functor. -/
theorem Pushed.establish {w : World} {a : Action} {l : LoopId} {c : ConnId}
    (pushed : Pushed w a l (.connectEstablished c)) : c = w.created := by
  cases pushed with
  | connectEstablished accepting => rfl

theorem Appended.establish {w : World} (placed : w.Placed) {a : Action} {l : LoopId} {c : ConnId}
    (appended : Appended w a l (.connectEstablished c)) : c = w.created := by
  cases appended with
  | connectEstablished l' accepting => rfl
  | byJob l' kernel job running current _ member target =>
      rcases (w.perform_calls l' kernel job).of_queued member with
        ⟨kind, same, _⟩ | ⟨c', same, _⟩ | ⟨c', same, _⟩
      · cases kind <;> cases same
      · cases same
      · cases same
  | submitted l' _ running top target =>
      exact absurd (placed.submitted_hop top) (by simp [Task.hop])
  | byThread t _ running calling target =>
      exact absurd ((placed.threads t).calling _ calling).1 (by simp [Task.hop])

theorem EstablishToken.next {w : World} (token : w.EstablishToken) (placed : w.Placed)
    {a : Action} (guard : w.Enabled a) : (w.next a).EstablishToken := by
  have later := placed.next_extends guard
  refine ⟨fun c l => ?_, fun c l member up => ?_⟩ <;>
    obtain ⟨taken, pushed, rest, queued, takes, before, same, pushes, appends, few⟩ :=
      next_flow placed guard l
  · rw [same, List.count_append, List.count_append]
    by_cases new : c = w.created
    · -- the functor of the connection under construction is the only hop that is added
      have unknown : rest.count (.connectEstablished c) = 0 := by
        refine List.count_eq_zero.mpr fun member => ?_
        have there : .connectEstablished c ∈ (w.loops l).tasks := by
          rw [before]
          exact List.mem_append_right _ member
        have ok := placed.task_ok there
        exact absurd new (Nat.ne_of_lt ok.1.1)
      have hops : (pushed ++ queued).count (.connectEstablished c) ≤
          (pushed ++ queued).countP Task.hop := by
        refine List.countP_mono_left fun task _ found => ?_
        rw [beq_iff_eq] at found
        exact found ▸ rfl
      rw [List.count_append] at hops
      omega
    · have notPushed : pushed.count (.connectEstablished c) = 0 :=
        List.count_eq_zero.mpr fun member => new (pushes _ member).establish
      have notQueued : queued.count (.connectEstablished c) = 0 :=
        List.count_eq_zero.mpr fun member => new ((appends _ member).establish placed)
      have old := token.once c l
      rw [before, List.count_append] at old
      omega
  · have known : c < w.created := by
      rcases Nat.lt_or_ge c w.created with known | beyond
      · exact known
      · have new := eq_created_of_next beyond up.1
        have history := placed.next_history_new guard
        rw [← new] at history
        have event := up.2
        rw [history] at event
        exact absurd event List.not_mem_nil
    have inRest : Task.connectEstablished c ∈ rest := by
      rw [same, List.mem_append, List.mem_append] at member
      rcases member with (pushedIt | old) | queuedIt
      · exact absurd (pushes _ pushedIt).establish (Nat.ne_of_lt known)
      · exact old
      · exact absurd ((appends _ queuedIt).establish placed) (Nat.ne_of_lt known)
    have wasThere : Task.connectEstablished c ∈ (w.loops l).tasks := by
      rw [before]
      exact List.mem_append_right _ inRest
    have event := up.2
    rw [later.loop c known] at event
    rcases mem_next_history guard event (Nat.ne_of_lt known) with
      old | ⟨l', kernel, job, running, current, about, here, emits⟩
    · exact token.unspent c l wasThere ⟨known, old⟩
    · -- the functor that ran was the one token
      cases emits with
      | established c' =>
          obtain rfl : c' = c := about
          have target := (placed.task_ok wasThere).2 rfl
          have sameLoop : l = (w.conns c').conn.loop := target.symm.trans rfl
          cases takes with
          | nothing idle => exact idle kernel _ (sameLoop ▸ running) (sameLoop ▸ current)
          | ran kernel' task running' current' =>
              rw [sameLoop, current] at current'
              cases current'
              have once := token.once c' l
              rw [before, Option.toList_some, List.singleton_append, List.count_cons_self] at once
              have positive := List.count_pos_iff.mpr inRest
              omega
          | submitted task running' top =>
              rw [running] at running'
              cases running'

end World

theorem establishToken {w : World} (reachable : server.Reachable w) : w.EstablishToken := by
  refine reachable.invariant (I := World.EstablishToken) ?_ ?_
  · rintro w ⟨name, ipPort, callbacks, ioLoops, users, rfl⟩
    exact ⟨fun _ _ => Nat.zero_le _, nofun⟩
  · exact fun w a before token guard => token.next (placed before) guard

namespace World

/-- A connection whose establishment is running was not up. -/
theorem EstablishToken.not_up_of_current {w : World} (token : w.EstablishToken) {l : LoopId}
    {c : ConnId} (current : w.current l = some (.task (.connectEstablished c))) : ¬ w.Up c :=
  token.unspent c l (mem_tasks_of_current current)

end World

end EduMuduo

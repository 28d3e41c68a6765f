/-
Module: EduMuduo.Proofs.Range
Layer: Proofs
Purpose: Only the loops of the pool and the threads of the user ever take part.  A connection gets
  one of the loops `0, …, ioLoops`, and beyond these numbers no stack, no queue and no thread
  holds anything; so the ranges over which `owned` looks leave no copy out.
Imports: EduMuduo.Proofs.QueueFlow, EduMuduo.Proofs.Registry
Trusted boundary: none
Main exports: next_size, World.InRange, inRange
-/
import EduMuduo.Proofs.QueueFlow
import EduMuduo.Proofs.Registry

namespace EduMuduo

open Library

namespace World

/-! ### The size of the server -/

/-- The numbers of loops and of the user's threads. -/
def size (w : World) : Nat × Nat := (w.server.ioLoops, w.users)

theorem runInLoop_size (w : World) (l ioLoop : LoopId) (task : Task) :
    (w.runInLoop l ioLoop task).size = w.size := by
  rw [runInLoop]
  split <;> rfl

theorem newConnection_size (w : World) (l : LoopId) (named : Bool) :
    (w.newConnection l named).size = w.size := by
  obtain ⟨next, same⟩ := getNextLoop_snd w.server
  cases named with
  | false => simp only [newConnection, countAccepted, same, size]; rfl
  | true =>
      simp only [newConnection, if_true, runInLoop_size]
      simp only [addConnection, countAccepted, same, size]

theorem next_size (w : World) (a : Action) : (w.next a).size = w.size := by
  cases a with
  | handleEvent l named =>
      rw [next]
      split
      · rfl
      · rename_i first rest split
        cases first with
        | channel c revents => rfl
        | acceptor =>
            rw [handleEvent]
            split
            · rfl
            · exact newConnection_size _ l named
  | run l kernel | submit l | userSend l c data | queueInLoop t | send t c data =>
      rw [next]
      split <;> rfl
  | userShutdown l c | shutdown t c =>
      simp only [next]
      split <;> rfl
  | destroyConnection c => exact runInLoop_size _ _ _ _
  | destroyMember =>
      rw [next, destroyMember]
      split <;> rfl
  | enterLoop l | poll l active | doPendingFunctors l | endBatch l | destroyLoop l
  | userSetHighWaterMarkCallback l c mark | userRetrieve l c len | userTake l t c | userGive l t c
  | userReturn l | copy t other c | drop t c | queueUser t c | quit l | destroyServer => rfl

theorem next_ioLoops (w : World) (a : Action) :
    (w.next a).server.ioLoops = w.server.ioLoops := congrArg Prod.fst (w.next_size a)

theorem next_users (w : World) (a : Action) : (w.next a).users = w.users :=
  congrArg Prod.snd (w.next_size a)

/-! ### Nothing beyond it -/

structure InRange (w : World) : Prop where
  conns : ∀ c < w.created, w.isLoop (w.conns c).conn.loop
  /-- the base loop has connections only when it is alone -/
  base : ∀ c < w.created, (w.conns c).conn.loop = 0 → w.server.ioLoops = 0
  stack : ∀ l, ¬ w.isLoop l → (w.loops l).stack = []
  ran : ∀ l, ¬ w.isLoop l → (w.loops l).functors.ran = []
  threads : ∀ t, ¬ w.isThread t → w.threads t = ⟨[], none⟩

theorem getNextLoop_le (server : TcpServer) : (getNextLoop server).1 ≤ server.ioLoops := by
  rw [getNextLoop]
  split
  · exact Nat.zero_le _
  · rename_i some
    exact Nat.one_add_le_iff.mpr (Nat.mod_lt server.next (Nat.pos_of_ne_zero some))

/-- The pool gives out loop 0 only when it is empty. -/
theorem getNextLoop_base {server : TcpServer} (base : (getNextLoop server).1 = 0) :
    server.ioLoops = 0 := by
  rw [getNextLoop] at base
  split at base
  · assumption
  · exact absurd base (by simp)

/-- A call is put on the stack of a loop of the server. -/
theorem Pushed.isLoop {w : World} {a : Action} (guard : w.Enabled a) {l : LoopId} {task : Task}
    (pushed : Pushed w a l task) : w.isLoop l := by
  cases pushed with
  | connectEstablished accepting => subst accepting; exact guard.1
  | removeConnectionInLoop kernel c running current => subst running; exact guard.1
  | sendInLoop c data running connected => subst running; exact guard.1
  | shutdownInLoop c running connected => subst running; exact guard.1
  | connectDestroyed c running base here => exact base ▸ Nat.zero_le _

theorem InRange.nextStack {w : World} (inRange : w.InRange) {a : Action} (guard : w.Enabled a)
    {l : LoopId} (outside : ¬ w.isLoop l) : ((w.next a).loops l).stack = [] := by
  have empty := inRange.stack l outside
  have change := next_stack guard l
  generalize ((w.next a).loops l).stack = stack at change ⊢
  cases change with
  | same idle => exact empty
  | dispatched named c revents running => subst running; exact absurd guard.1 outside
  | ran kernel job loop running => subst running; exact absurd guard.1 outside
  | called task idle pushed => exact absurd (pushed.isLoop guard) outside
  | destroying running base => exact absurd (base ▸ Nat.zero_le _) outside
  | submitted task rest running top | returned held rest running top
  | took t c held rest running top | member frame frames rest running top =>
      rw [empty] at top
      cases top

theorem InRange.nextRan {w : World} (inRange : w.InRange) (placed : w.Placed) {a : Action}
    (guard : w.Enabled a) {l : LoopId} (outside : ¬ w.isLoop l) :
    ((w.next a).loops l).functors.ran = [] := by
  have empty := inRange.ran l outside
  have change := next_queue placed guard l
  generalize ((w.next a).loops l).functors = functors at change ⊢
  cases change with
  | intro base queued source appends =>
      cases source with
      | same idle => exact empty
      | swapped running => rfl
      | released running => rfl
      | advanced kernel task rest running => subst running; exact absurd guard.1 outside

theorem InRange.nextThread {w : World} (inRange : w.InRange) {a : Action} (guard : w.Enabled a)
    {t : ThreadId} (outside : ¬ w.isThread t) : (w.next a).threads t = ⟨[], none⟩ := by
  have empty := inRange.threads t outside
  have change := next_thread guard t
  generalize (w.next a).threads t = thread at change ⊢
  cases change with
  | same idle => exact empty
  | gained c source =>
      rcases source with ⟨l, rfl⟩ | ⟨t', rfl⟩ <;> exact absurd guard.2.1 outside
  | dropped c running => subst running; exact absurd guard.1 outside
  | called task free called =>
      cases called with
      | sendInLoop c data running connected => subst running; exact absurd guard.1 outside
      | shutdownInLoop c running connected => subst running; exact absurd guard.1 outside
      | user c running => subst running; exact absurd guard.1 outside
  | queued task running => subst running; exact absurd guard.1 outside

theorem InRange.next {w : World} (inRange : w.InRange) (placed : w.Placed) {a : Action}
    (guard : w.Enabled a) : (w.next a).InRange := by
  have loops : ∀ l, (w.next a).isLoop l ↔ w.isLoop l := fun l => by
    rw [isLoop, isLoop, next_ioLoops]
  have threads : ∀ t, (w.next a).isThread t ↔ w.isThread t := fun t => by
    rw [isThread, isThread, next_users]
  refine ⟨fun c known => ?_, fun c known => ?_,
    fun l outside => inRange.nextStack guard (mt (loops l).mpr outside),
    fun l outside => inRange.nextRan placed guard (mt (loops l).mpr outside),
    fun t outside => inRange.nextThread guard (mt (threads t).mpr outside)⟩
  · rw [loops]
    rcases Nat.lt_or_ge c w.created with old | unknown
    · rw [(placed.next_extends guard).loop c old]
      exact inRange.conns c old
    · obtain rfl := eq_created_of_next unknown known
      rw [next_constructed (by omega)]
      exact getNextLoop_le w.server
  · rw [next_ioLoops]
    rcases Nat.lt_or_ge c w.created with old | unknown
    · rw [(placed.next_extends guard).loop c old]
      exact inRange.base c old
    · obtain rfl := eq_created_of_next unknown known
      rw [next_constructed (by omega)]
      exact getNextLoop_base

/-- A functor belongs on a loop of the server. -/
theorem InRange.target {w : World} (inRange : w.InRange) {task : Task}
    (known : task.conn < w.created) : w.isLoop (w.target task) := by
  cases task with
  | removeConnectionInLoop c => exact Nat.zero_le _
  | _ => exact inRange.conns _ known

/-- A functor waits on a loop of the server only. -/
theorem InRange.waiting {w : World} (inRange : w.InRange) (placed : w.Placed) {l : LoopId}
    (outside : ¬ w.isLoop l) : (w.loops l).functors.waiting = [] := by
  refine List.eq_nil_iff_forall_not_mem.mpr fun task member => outside ?_
  obtain ⟨ok, target⟩ := (placed.loops l).waiting task member
  exact target ▸ inRange.target ok.1

/-- A loop that has something to run is a loop of the server. -/
theorem InRange.tasks {w : World} (inRange : w.InRange) (placed : w.Placed) {l : LoopId}
    (outside : ¬ w.isLoop l) : (w.loops l).tasks = [] := by
  rw [Loop.tasks, inRange.stack l outside, inRange.waiting placed outside]
  rfl

theorem Placed.known_of_waits {w : World} (placed : w.Placed) {task : Task}
    (waits : w.Waits task) : task.conn < w.created := by
  rcases waits with ⟨l, member⟩ | ⟨t, calling⟩
  · exact (placed.task_ok member).1.1
  · exact ((placed.threads t).calling _ calling).2.1

/-- Where a functor can wait. -/
theorem InRange.waits {w : World} (inRange : w.InRange) (placed : w.Placed) {task : Task}
    (waits : w.Waits task) :
    (∃ l, l ≤ w.server.ioLoops ∧ task ∈ (w.loops l).tasks) ∨
      ∃ t, t < w.users ∧ (w.threads t).calling = some task := by
  rcases waits with ⟨l, member⟩ | ⟨t, calling⟩
  · by_cases inside : w.isLoop l
    · exact .inl ⟨l, inside, member⟩
    · rw [inRange.tasks placed inside] at member
      exact absurd member List.not_mem_nil
  · by_cases inside : w.isThread t
    · exact .inr ⟨t, inside, calling⟩
    · rw [inRange.threads t inside] at calling
      cases calling

end World

theorem inRange {w : World} (reachable : server.Reachable w) : w.InRange := by
  refine reachable.invariant (I := World.InRange) ?_
    fun w a before inRange guard => inRange.next (placed before) guard
  rintro w ⟨name, ipPort, callbacks, ioLoops, users, rfl⟩
  exact ⟨fun c known => absurd known (Nat.not_lt_zero c),
    fun c known => absurd known (Nat.not_lt_zero c), fun _ _ => rfl, fun _ _ => rfl,
    fun _ _ => rfl⟩

end EduMuduo

/-
Module: EduMuduo.Proofs.StateOrder
Layer: Proofs
Purpose: Whether `state_` only moves forward.  Every operation but one does: `connectEstablished`
  finds `Connecting`, since no `connectDestroyed` of a connection is ever ahead of it, and the
  others keep the state or end it.  The exchange in `shutdown` does not look at what it replaces,
  so it takes a `Disconnected` connection back to `Disconnecting`.
Imports: EduMuduo.Proofs.ShutdownKept
Trusted boundary: none
Main exports: establishFirst, connecting_of_not_up, State.rank, World.TimelyShutdown,
  state_moves_forward
-/
import EduMuduo.Proofs.ShutdownKept

namespace EduMuduo

open Library

/-! ### The establishment of a connection comes first -/

namespace World

/-- `newConnection` calls `connectEstablished` on an empty stack, and it stays alone there. -/
def EstablishAlone (w : World) : Prop :=
  ∀ l c, .job (.task (.connectEstablished c)) ∈ (w.loops l).stack →
    (w.loops l).stack = [.job (.task (.connectEstablished c))]

theorem EstablishAlone.next {w : World} (alone : w.EstablishAlone) {a : Action}
    (guard : w.Enabled a) : (w.next a).EstablishAlone := by
  intro l c member
  have change := next_stack guard l
  have old := alone l c
  -- below the top there is no such frame
  have notBelow : .job (.task (.connectEstablished c)) ∉ (w.loops l).stack.tail := by
    intro below
    rw [old (List.mem_of_mem_tail below)] at below
    exact absurd below List.not_mem_nil
  generalize ((w.next a).loops l).stack = stack at change member ⊢
  cases change with
  | same => exact old member
  | dispatched named c' revents running empty active =>
      cases w.dispatch_frames c' revents _ member
  | ran kernel job loop running fetched =>
      rcases List.mem_append.mp member with new | rest
      · cases w.perform_leaves l kernel job _ new
      · exact absurd (Loop.fetch_tail fetched ▸ rest) notBelow
  | called task idle pushed =>
      rcases List.mem_cons.mp member with same | below
      · cases same
        cases pushed with
        | connectEstablished accepting =>
            subst accepting
            rw [show (w.loops l).stack = [] from guard.2.2.1]
      · have top := pushed.top guard idle
        rw [old below] at top
        cases top _ rfl
  | destroying running base =>
      subst running base
      rcases List.mem_cons.mp member with same | below
      · cases same
      · have top := destroyServer_top guard
        rw [old below] at top
        cases top _ rfl
  | took t c' held rest running top =>
      rcases List.mem_cons.mp member with same | below
      · cases same
      · exact absurd below (by rwa [top] at notBelow)
  | submitted task rest running top => exact absurd member (by rwa [top] at notBelow)
  | returned held rest running top => exact absurd member (by rwa [top] at notBelow)
  | member frame frames rest running top plain others =>
      rcases List.mem_append.mp member with new | below
      · cases (others _ new).1
      · exact absurd below (by rwa [top] at notBelow)

/-- An accepted connection of the accepting loop is not queued. -/
theorem newConnection_functors {w : World} {l : LoopId} (own : (getNextLoop w.server).1 = l)
    (l' : LoopId) : ((w.newConnection l true).loops l').functors = (w.loops l').functors := by
  simp only [newConnection, if_true, runInLoop, if_pos own]
  exact functors_setLoop_same _ _ _ rfl

theorem accept_functors {w : World} {l : LoopId} (own : (getNextLoop w.server).1 = l)
    (l' : LoopId) :
    ((w.next (.handleEvent l true)).loops l').functors = (w.loops l').functors := by
  rw [next]
  split
  · rfl
  · rename_i active rest _
    have kept := w.functors_setLoop_same l' l
      (show { w.loops l with activeChannels := rest }.functors = (w.loops l).functors from rfl)
    rw [← kept]
    cases active with
    | channel c revents =>
        rw [handleEvent]
        exact functors_setLoop_same _ _ _ (by rfl)
    | acceptor =>
        rw [handleEvent]
        split
        · rfl
        · exact newConnection_functors (by exact own) l'

end World

theorem establishAlone {w : World} (reachable : server.Reachable w) : w.EstablishAlone := by
  refine reachable.invariant (I := World.EstablishAlone) ?_
    fun w a _ alone guard => alone.next guard
  rintro w ⟨name, ipPort, callbacks, ioLoops, users, rfl⟩ l c member
  exact absurd member List.not_mem_nil

/-- On the base loop no establishment waits in the queue. -/
theorem establish_not_queued {w : World} (reachable : server.Reachable w) (c : ConnId) :
    .connectEstablished c ∉ (w.loops 0).functors.waiting := by
  refine reachable.invariant
    (I := fun w => .connectEstablished c ∉ (w.loops 0).functors.waiting) ?_ ?_
  · rintro w ⟨name, ipPort, callbacks, ioLoops, users, rfl⟩
    exact List.not_mem_nil
  · intro w a before absent guard member
    have placed := placed before
    have guard : w.Enabled a := guard
    rcases World.mem_waiting_next placed guard member with old | appended
    · exact absent old
    · obtain rfl := appended.establish placed
      -- it is for the base loop only where the base loop has accepted for itself
      obtain ⟨ok, base⟩ := ((placed.next guard).loops 0).waiting _ member
      change ((w.next a).conns w.created).conn.loop = 0 at base
      have grown : (w.next a).created ≠ w.created := Nat.ne_of_gt ok.1
      rw [World.next_constructed grown] at base
      rcases World.next_created w a with same | ⟨⟨l, rfl⟩, _⟩
      · exact grown same
      · have inside : l ≤ w.server.ioLoops := guard.1
        rw [World.getNextLoop_base base, Nat.le_zero] at inside
        subst inside
        refine absent ?_
        rw [← World.accept_functors base 0]
        exact member

/-- So wherever `~TcpServer` is on top of the base loop's stack, no establishment waits there. -/
theorem establish_notMem_base {w : World} (reachable : server.Reachable w)
    (top : (w.loops 0).stack.head? = some .destroyServer) (c : ConnId) :
    .connectEstablished c ∉ (w.loops 0).tasks := by
  intro member
  rcases List.mem_append.mp member with called | waiting
  · obtain ⟨frame, onStack, called⟩ := List.mem_filterMap.mp called
    unfold Frame.task? at called
    split at called
    · cases called
      rw [establishAlone reachable 0 c onStack] at top
      cases top
    all_goals cases called
  · exact establish_not_queued reachable c waiting

namespace World

/-- `later` is not the establishment of a connection that `earlier` destroys. -/
def InTurn (earlier later : Task) : Prop :=
  ∀ c, earlier = .connectDestroyed c → later ≠ .connectEstablished c

/-- On every loop a connection is established before it is destroyed. -/
def EstablishFirst (w : World) : Prop := ∀ l, (w.loops l).tasks.Pairwise InTurn

/-- Among functors with at most one hop nothing is out of turn. -/
theorem inTurn_of_few {tasks : List Task} (few : tasks.countP Task.hop ≤ 1) :
    tasks.Pairwise InTurn := by
  induction tasks with
  | nil => exact .nil
  | cons first rest inductionHypothesis =>
      refine List.pairwise_cons.mpr ⟨?_, inductionHypothesis ?_⟩
      · rintro later member c rfl rfl
        have one : 0 < rest.countP Task.hop := List.countP_pos_iff.mpr ⟨_, member, rfl⟩
        rw [List.countP_cons_of_pos (by rfl)] at few
        omega
      · exact Nat.le_trans (List.Sublist.countP_le (List.sublist_cons_self _ _)) few

end World

theorem establishFirst_next {w : World} (first : w.EstablishFirst)
    (reachable : server.Reachable w) {a : Action} (guard : w.Enabled a) :
    (w.next a).EstablishFirst := by
  intro l
  have placed := placed reachable
  obtain ⟨taken, pushed, rest, queued, takes, before, same, pushes, appends, few⟩ :=
    World.next_flow placed guard l
  have old := first l
  rw [before] at old
  have kept : ∀ task ∈ rest, task ∈ (w.loops l).tasks := fun task member => by
    rw [before]
    exact List.mem_append_right _ member
  have new := List.pairwise_append.mp (World.inTurn_of_few few)
  rw [same, List.pairwise_append, List.pairwise_append]
  refine ⟨⟨new.1, (List.pairwise_append.mp old).2.1, ?_⟩, new.2.1, ?_⟩
  · -- a call of `connectDestroyed` is made by `~TcpServer`
    rintro _ calls later member c rfl rfl
    cases pushes _ calls with
    | connectDestroyed _ running base here =>
        subst running base
        exact establish_notMem_base reachable guard.1 c (kept _ member)
  · rintro earlier member later appended c rfl rfl
    rcases List.mem_append.mp member with calls | waits
    · exact new.2.2 _ calls _ appended c rfl rfl
    · -- the connection of a functor that waits is not the new one
      have known := (placed.task_ok (kept _ waits)).1.1
      exact absurd ((appends _ appended).establish placed) (Nat.ne_of_lt known)

theorem establishFirst {w : World} (reachable : server.Reachable w) : w.EstablishFirst := by
  refine reachable.invariant (I := World.EstablishFirst) ?_
    fun w a before first guard => establishFirst_next first before guard
  rintro w ⟨name, ipPort, callbacks, ioLoops, users, rfl⟩ l
  exact .nil

namespace World

/-- `newConnection` hands the establishment to a loop. -/
theorem constructed_waits {w : World} {a : Action} (grown : (w.next a).created ≠ w.created) :
    (w.next a).Waits (.connectEstablished w.created) := by
  rcases next_created w a with same | ⟨⟨l, rfl⟩, _⟩
  · exact absurd same grown
  · rw [next] at grown ⊢
    split at grown
    · exact absurd rfl grown
    · rename_i active rest _
      cases active with
      | channel c revents => exact absurd rfl grown
      | acceptor =>
          rw [handleEvent] at grown ⊢
          split at grown
          · exact absurd rfl grown
          · rename_i running
            rw [if_neg running]
            exact runInLoop_waits _ _ _ _

/-- Running the functor of an establishment makes the connection come up. -/
theorem up_of_establish {w : World} (placed : w.Placed) {l : LoopId} {kernel : Kernel}
    (guard : w.Enabled (.run l kernel)) {c : ConnId}
    (current : w.current l = some (.task (.connectEstablished c))) :
    (w.next (.run l kernel)).Up c := by
  have ok := placed.current_ok current
  have later := placed.next_extends guard
  refine ⟨Nat.lt_of_lt_of_le ok.1.1 later.created, ?_⟩
  rw [later.loop c ok.1.1, show (w.conns c).conn.loop = l from ok.2 rfl]
  exact mem_run_history guard current List.mem_cons_self

end World

/-- A connection that is not up yet has its establishment waiting on its loop. -/
theorem establish_waits {w : World} (reachable : server.Reachable w) {c : ConnId}
    (known : c < w.created) (down : ¬ w.Up c) :
    .connectEstablished c ∈ (w.loops (w.conns c).conn.loop).tasks := by
  have waits : w.Waits (.connectEstablished c) := by
    refine (reachable.invariant
      (I := fun w => c < w.created → w.Up c ∨ w.Waits (.connectEstablished c)) ?_ ?_
      known).resolve_left down
    · rintro w ⟨name, ipPort, callbacks, ioLoops, users, rfl⟩ known
      exact absurd known (Nat.not_lt_zero c)
    · intro w a before waits guard known
      have guard : w.Enabled a := guard
      rcases Nat.lt_or_ge c w.created with old | unknown
      · rcases waits old with up | waits
        · exact .inl (up.mono ((placed before).next_extends guard))
        · rcases World.Waits.next (placed before) guard waits with
            ⟨l, kernel, rfl, current⟩ | waits
          · exact .inl (World.up_of_establish (placed before) guard current)
          · exact .inr waits
      · obtain rfl := World.eq_created_of_next unknown known
        exact .inr (World.constructed_waits (Nat.ne_of_gt known))
  rcases waits with ⟨l, member⟩ | ⟨t, calling⟩
  · have here : (w.conns c).conn.loop = l := ((placed reachable).task_ok member).2 rfl
    exact here ▸ member
  · exact absurd ((placed reachable).threads t |>.calling _ calling).1 (by simp [Task.hop])

/-- `connectDestroyed` runs on established connections only. -/
theorem up_of_destroy {w : World} (reachable : server.Reachable w) {l : LoopId} {c : ConnId}
    (current : w.current l = some (.task (.connectDestroyed c))) : w.Up c := by
  by_contra down
  have ok := (placed reachable).current_ok current
  obtain rfl : (w.conns c).conn.loop = l := ok.2 rfl
  have waits : .connectEstablished c ∈ (w.loops (w.conns c).conn.loop).tasks :=
    establish_waits reachable ok.1.1 down
  have first := establishFirst reachable (w.conns c).conn.loop
  obtain ⟨loop, fetched⟩ := World.exists_fetch current
  rw [Loop.tasks_fetch fetched] at waits first
  rcases List.mem_cons.mp waits with same | behind
  · cases same
  · exact (List.pairwise_cons.mp first).1 _ behind c rfl rfl

/-- A connection with `connectDestroyed` behind it had been established. -/
theorem destroyed_up {w : World} (reachable : server.Reachable w) {c : ConnId} {l : LoopId}
    (destroyed : .connectDestroyed l ∈ (w.conns c).history) : w.Up c := by
  revert destroyed
  refine reachable.invariant
    (I := fun w => .connectDestroyed l ∈ (w.conns c).history → w.Up c) ?_ ?_
  · rintro w ⟨name, ipPort, callbacks, ioLoops, users, rfl⟩ destroyed
    exact absurd destroyed List.not_mem_nil
  · intro w a before up guard destroyed
    have placed := placed before
    have later := placed.next_extends guard
    by_cases new : c = w.created
    · have history := placed.next_history_new guard
      rw [new] at destroyed
      rw [show ((server.next w a).conns w.created).history = [] from history] at destroyed
      exact absurd destroyed List.not_mem_nil
    · rcases World.mem_next_history guard destroyed new with
        old | ⟨l', kernel, job, running, current, about, here, emits⟩
      · exact (up old).mono later
      · cases emits with
        | destroyed c' =>
            obtain rfl : c' = c := about
            exact (up_of_destroy before current).mono later

/-- Every job but the establishment finds its connection up. -/
theorem up_of_job {w : World} (reachable : server.Reachable w) {l : LoopId} {job : Job}
    (current : w.current l = some job) (other : job ≠ .task (.connectEstablished job.conn)) :
    w.Up job.conn := by
  have ok := (placed reachable).current_ok current
  cases job with
  | task task =>
      cases task with
      | connectEstablished c => exact absurd rfl other
      | connectDestroyed c => exact up_of_destroy reachable current
      | removeConnectionInLoop c => exact (ok.1.2.2 c rfl).1
      | sendInLoop c data caller | shutdownInLoop c | writeCompleteCallback c
      | highWaterMarkCallback c total | user c => exact ok.1.2.1 rfl
  | callback callback c | releaseGuard c | closeCallback c => exact ok.1
  | removeChannel c => exact destroyed_up reachable ok.2.2

/-- Until its establishment a connection is `Connecting`. -/
theorem connecting_of_not_up {w : World} (reachable : server.Reachable w) {c : ConnId}
    (down : ¬ w.Up c) : (w.conns c).conn.state = .connecting := by
  refine reachable.invariant
    (I := fun w => ¬ w.Up c → (w.conns c).conn.state = .connecting) ?_ ?_ down
  · rintro w ⟨name, ipPort, callbacks, ioLoops, users, rfl⟩ _
    rfl
  · intro w a before connecting guard down
    have guard : w.Enabled a := guard
    have placed := placed before
    have wasDown : ¬ w.Up c := mt (World.Up.mono (placed.next_extends guard)) down
    have change := World.next_change guard c
    change ((w.next a).conns c).conn.state = .connecting
    generalize (w.next a).conns c = tracked at change ⊢
    cases change with
    | same => exact connecting wasDown
    | constructed new => rfl
    | performed l kernel job running current about here fits after events conn log deed =>
        subst about running
        have ok := placed.current_ok current
        cases deed with
        | establish c => exact absurd (World.up_of_establish placed guard current) down
        | destroy c => exact absurd (up_of_destroy before current) wasDown
        | send c data caller => exact absurd (ok.1.2.1 rfl) wasDown
        | shutdown c => exact absurd (ok.1.2.1 rfl) wasDown
        | close callback c input closing => exact absurd ok.1 wasDown
        | write c => exact absurd ok.1 wasDown
        | remove c | other job | error c | read c input events received | closeCallback c
        | removeChannel c => exact connecting wasDown
    | exchanged call => exact absurd (World.Exchanges.up placed guard call) wasDown
    | marked mark => exact connecting wasDown
    | retrieved len => exact connecting wasDown

/-! ### The order of the states -/

/-- The place of a state in the life of a connection. -/
def State.rank : State → Nat
  | .connecting => 0
  | .connected => 1
  | .disconnecting => 2
  | .disconnected => 3

theorem State.rank_le (state : State) : state.rank ≤ State.disconnected.rank := by
  cases state <;> decide

/-- The end has the last place alone. -/
theorem State.eq_disconnected {state : State} (last : State.disconnected.rank ≤ state.rank) :
    state = .disconnected := by
  cases state with
  | disconnected => rfl
  | connecting | connected | disconnecting => exact absurd last (by decide)

theorem State.rank_le_disconnecting {state : State} (ongoing : state ≠ .disconnected) :
    state.rank ≤ State.disconnecting.rank := by
  cases state with
  | disconnected => exact absurd rfl ongoing
  | connecting | connected | disconnecting => decide

namespace World

/-- The exchange in `shutdown` does not find `Disconnected`. -/
def TimelyShutdown (w : World) : Action → Prop
  | .userShutdown _ c | .shutdown _ c => (w.conns c).conn.state ≠ .disconnected
  | _ => True

instance (w : World) : ∀ action, Decidable (w.TimelyShutdown action)
  | .userShutdown _ _ | .shutdown _ _ => inferInstanceAs (Decidable (_ ≠ _))
  | .enterLoop _ | .poll _ _ | .handleEvent _ _ | .doPendingFunctors _ | .endBatch _
  | .destroyLoop _ | .run _ _ | .submit _ | .userSend _ _ _ | .userSetHighWaterMarkCallback _ _ _
  | .userRetrieve _ _ _ | .userTake _ _ _ | .userGive _ _ _ | .userReturn _ | .copy _ _ _
  | .drop _ _ | .send _ _ _ | .queueUser _ _ | .queueInLoop _ | .quit _ | .destroyServer
  | .destroyConnection _ | .destroyMember => inferInstanceAs (Decidable True)

theorem timelyShutdown_iff (w : World) (a : Action) :
    w.TimelyShutdown a ↔ ∀ c, Exchanges a c → (w.conns c).conn.state ≠ .disconnected := by
  cases a with
  | userShutdown l c =>
      constructor
      · rintro timely _ (⟨l', ⟨⟩⟩ | ⟨t, ⟨⟩⟩)
        exact timely
      · exact fun timely => timely c (.inl ⟨l, rfl⟩)
  | shutdown t c =>
      constructor
      · rintro timely _ (⟨l, ⟨⟩⟩ | ⟨t', ⟨⟩⟩)
        exact timely
      · exact fun timely => timely c (.inr ⟨t, rfl⟩)
  | _ =>
      refine ⟨fun _ c exchanges => ?_, fun _ => trivial⟩
      rcases exchanges with ⟨l, same⟩ | ⟨t, same⟩ <;> cases same

end World

/-- A job moves the state of its connection forward. -/
theorem run_rank_le {w : World} (reachable : server.Reachable w) {l : LoopId} {kernel : Kernel}
    {job : Job} (current : w.current l = some job) (fits : w.KernelFits kernel job)
    {after : TcpConnection} {events : List Event}
    (deed : World.Deed l kernel (w.conns job.conn).conn job after events) :
    (w.conns job.conn).conn.state.rank ≤ after.state.rank := by
  cases deed with
  | establish c =>
      have connecting : (w.conns c).conn.state = .connecting :=
        connecting_of_not_up reachable ((establishToken reachable).not_up_of_current current)
      change (w.conns c).conn.state.rank ≤ _
      rw [connecting]
      exact Nat.zero_le _
  | destroy c =>
      rw [TcpConnection.connectDestroyed_state]
      exact State.rank_le _
  | close callback c input closing => exact State.rank_le _
  | send c data caller =>
      exact Nat.le_of_eq (congrArg _ (TcpConnection.sendInLoop_state _ data kernel.write)).symm
  | shutdown c =>
      exact Nat.le_of_eq (congrArg (·.state.rank) (TcpConnection.shutdownInLoop_eq _)).symm
  | write c => exact Nat.le_of_eq (congrArg _ (TcpConnection.handleWrite_state _ fits)).symm
  | remove c | other job | error c | read c input events received | closeCallback c
  | removeChannel c => exact Nat.le_refl _

/-- A step moves the states of all connections forward exactly when it is not a `shutdown` that
finds `Disconnected`. -/
theorem rank_le_next_iff {w : World} (reachable : server.Reachable w) {a : Action}
    (guard : w.Enabled a) :
    (∀ c, (w.conns c).conn.state.rank ≤ ((w.next a).conns c).conn.state.rank) ↔
      w.TimelyShutdown a := by
  rw [World.timelyShutdown_iff]
  constructor
  · intro forward c exchanges disconnected
    have moved := forward c
    rw [World.exchanged_state w exchanges, disconnected] at moved
    exact absurd moved (by decide)
  · intro timely c
    have change := World.next_change guard c
    generalize (w.next a).conns c = tracked at change ⊢
    cases change with
    | same => exact Nat.le_refl _
    | constructed new =>
        have down : ¬ w.Up c := fun up => absurd up.1 (Nat.not_lt.mpr (Nat.le_of_eq new.symm))
        rw [connecting_of_not_up reachable down]
        exact Nat.zero_le _
    | performed l kernel job running current about here fits after events conn log deed =>
        subst about
        exact run_rank_le reachable current fits deed
    | exchanged call => exact State.rank_le_disconnecting (timely c call)
    | marked mark => exact Nat.le_refl _
    | retrieved len => exact Nat.le_refl _

/-- In every run in which no `shutdown` exchanges `Disconnected`, states only move forward along
Connecting, Connected, Disconnecting, Disconnected, and the last one is final. -/
theorem state_moves_forward {w : World}
    (reachable : (server.restrict World.TimelyShutdown).Reachable w) {schedule : List Action}
    (admitted : (server.restrict World.TimelyShutdown).Admits w schedule) (c : ConnId) :
    (w.conns c).conn.state.rank ≤ ((server.exec w schedule).conns c).conn.state.rank ∧
      ((w.conns c).conn.state = .disconnected →
        ((server.exec w schedule).conns c).conn.state = .disconnected) := by
  have forward : (w.conns c).conn.state.rank ≤
      ((server.exec w schedule).conns c).conn.state.rank := by
    induction schedule generalizing w with
    | nil => exact Nat.le_refl _
    | cons a rest inductionHypothesis =>
        have step := (rank_le_next_iff reachable.of_restrict admitted.1.1).mpr admitted.1.2 c
        exact Nat.le_trans step (inductionHypothesis (reachable.step admitted.1) admitted.2)
  refine ⟨forward, fun disconnected => State.eq_disconnected ?_⟩
  rwa [disconnected] at forward

/-- The hypotheses are met by a connection that is shut down and then closed. -/
theorem state_moves_forward_demo :
    State.disconnecting.rank ≤ ((server.exec
      (server.exec (demoServer 1 1) (demoOpening ++ demoShutdown))
        [.run 1 demoKernel, .endBatch 1, .poll 1 [.channel 0 EPOLLHUP], .handleEvent 1 true,
          .run 1 demoKernel]).conns 0).conn.state.rank := by
  have admitted : (server.restrict World.TimelyShutdown).Admits (demoServer 1 1)
      (demoOpening ++ demoShutdown) := by decide +kernel
  have reachable := admitted.reachable (demoServer_initial 1 1)
  rw [Machine.restrict_exec] at reachable
  have shut : ((server.exec (demoServer 1 1) (demoOpening ++ demoShutdown)).conns 0).conn.state =
      .disconnecting := by decide +kernel
  have later : (server.restrict World.TimelyShutdown).Admits
      (server.exec (demoServer 1 1) (demoOpening ++ demoShutdown))
      [.run 1 demoKernel, .endBatch 1, .poll 1 [.channel 0 EPOLLHUP], .handleEvent 1 true,
        .run 1 demoKernel] := by decide +kernel
  have forward := (state_moves_forward reachable later 0).1
  rwa [shut] at forward

/-- The user's callback for the closed connection calls `shutdown`, which finds `Disconnected`. -/
theorem shutdown_reopens_state :
    ¬ ∀ (w : World) (schedule : List Action) (c : ConnId), server.Reachable w →
      server.Admits w schedule →
        (w.conns c).conn.state.rank ≤ ((server.exec w schedule).conns c).conn.state.rank := by
  intro claim
  have admitted : server.Admits (demoServer 1 1) (demoOpening ++ demoClosing) := by
    decide +kernel
  have forward := claim _ [.userShutdown 1 0] 0 (admitted.reachable (demoServer_initial 1 1))
    (by decide +kernel)
  exact absurd forward (by decide +kernel)

end EduMuduo

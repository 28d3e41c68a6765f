/-
Module: EduMuduo.Proofs.ShutdownOrder
Layer: Proofs
Purpose: Whether a thread's `shutdown` stays behind the thread's own sends.  Its functors do.  But
  `shutdown` sets the state at once, and a `handleWrite` that empties the buffer shuts down the
  write side when it sees `Disconnecting`, whatever is still queued; and `disableAll` ends write
  interest without emptying the buffer, so that `shutdownInLoop` no longer waits for it.
Imports: EduMuduo.Proofs.CallOrder, EduMuduo.Proofs.Range, EduMuduo.Proofs.WriteInterest
Trusted boundary: none
Main exports: Task.isSendOf, World.sendWaiting, World.OrderlyShutdown, World.SendsDone,
  shutdown_behind_sends, drain_overtakes_queued_send
-/
import EduMuduo.Proofs.CallOrder
import EduMuduo.Proofs.Range
import EduMuduo.Proofs.WriteInterest

namespace EduMuduo

open Library

/-! ### Shutting down behind the sends -/

/-- The functor of a `send` that thread `T` has made on the connection. -/
def Task.isSendOf (c : ConnId) (T : Caller) : Task → Bool
  | .sendInLoop c' _ caller => c' = c ∧ caller = T
  | _ => false

theorem Task.isSendOf_eq {c : ConnId} {T : Caller} {task : Task}
    (sent : task.isSendOf c T = true) : ∃ data, task = .sendInLoop c data T := by
  unfold isSendOf at sent
  split at sent
  · obtain ⟨rfl, rfl⟩ := of_decide_eq_true sent
    exact ⟨_, rfl⟩
  · cases sent

/-- The write takes bytes and leaves none: the read index moves twice over what was written. -/
def TcpConnection.drains (self : TcpConnection) : WriteResult → Bool
  | .accepted n => self.channel.isWriting && 0 < n && self.outputBuffer.readableBytes ≤ n + n
  | .failed _ => false

namespace World

/-- The `sendInLoop` of some accepted `send` of `T` has not run yet. -/
def sendWaiting (w : World) (c : ConnId) (T : Caller) : Bool :=
  (List.range (w.server.ioLoops + 1)).any (fun l => (w.loops l).tasks.any (Task.isSendOf c T)) ||
    (List.range w.users).any fun t => (w.threads t).calling.any (Task.isSendOf c T)

/-- `handleWrite` does not empty the buffer in state `Disconnecting` while a send of `T` waits, and
a `shutdownInLoop` that comes behind the end of the connection finds the buffer empty. -/
def DrainsInOrder (T : Caller) (c : ConnId) (w : World) (kernel : Kernel) (job : Job) : Prop :=
  (job = .callback .write c → (w.conns c).conn.state = .disconnecting →
    (w.conns c).conn.drains kernel.write = true → w.sendWaiting c T = false) ∧
  (job = .task (.shutdownInLoop c) → w.Closed c ∨ w.Destroyed c →
    (w.conns c).conn.channel.isWriting = true ∨ (w.conns c).conn.outputBuffer.readableBytes = 0)

instance (T : Caller) (c : ConnId) (w : World) (kernel : Kernel) (job : Job) :
    Decidable (DrainsInOrder T c w kernel job) := inferInstanceAs (Decidable (_ ∧ _))

/-- Whoever but `T` calls `shutdown` while `Connected` finds no accepted send of `T` waiting. -/
def ShutsBehind (T : Caller) (c : ConnId) (w : World) (a : Action) : Prop :=
  (w.conns c).conn.state = .connected → OnlyShutdownBy T c a ∨ w.sendWaiting c T = false

instance (T : Caller) (c : ConnId) (w : World) (a : Action) : Decidable (ShutsBehind T c w a) :=
  inferInstanceAs (Decidable (_ → _ ∨ _))

/-- The other callers of `shutdown` are not in the way, and the loop drains the buffer in order. -/
def OrderlyShutdown (T : Caller) (c : ConnId) (w : World) (a : Action) : Prop :=
  ShutsBehind T c w a ∧ w.OnJobs (DrainsInOrder T c) a

instance (T : Caller) (c : ConnId) (w : World) (a : Action) : Decidable (OrderlyShutdown T c w a) :=
  inferInstanceAs (Decidable (_ ∧ _))

/-- A call among the functors of a loop is on its stack. -/
theorem onStack_of_called {stack : List Frame} {task : Task}
    (called : task ∈ stack.filterMap Frame.task?) : .job (.task task) ∈ stack := by
  obtain ⟨frame, onStack, called⟩ := List.mem_filterMap.mp called
  unfold Frame.task? at called
  split at called
  · cases called
    exact onStack
  all_goals cases called

/-- A functor of `shutdown` that runs has no send of `T` left behind it. -/
theorem SendsFirst.none_waiting {w : World} {T : Caller} {c : ConnId} (sends : w.SendsFirst T c)
    (placed : w.Placed) (senders : w.SendersOk)
    (current : w.current (w.conns c).conn.loop = some (.task (.shutdownInLoop c))) :
    w.sendWaiting c T = false := by
  obtain ⟨loop, fetched⟩ := exists_fetch current
  have split := Loop.tasks_fetch fetched
  have first : .shutdownInLoop c ∈ (w.loops (w.conns c).conn.loop).tasks :=
    mem_tasks_of_current current
  have behind := sends.behind
  rw [split] at behind
  have none : ∀ data, ¬ w.InFlight c (.sendInLoop c data T) T := sends.inFlight first
  rw [← Bool.not_eq_true, sendWaiting, Bool.or_eq_true, List.any_eq_true, List.any_eq_true]
  rintro (⟨l, _, sent⟩ | ⟨t, _, sent⟩)
  · obtain ⟨task, member, sent⟩ := List.any_eq_true.mp sent
    obtain ⟨data, rfl⟩ := Task.isSendOf_eq sent
    by_cases here : l = (w.conns c).conn.loop
    · subst here
      rw [split] at member
      rcases List.mem_append.mp member with head | rest
      · cases List.mem_singleton.mp head
      · exact (List.pairwise_append.mp behind).2.2 _ (List.mem_singleton_self _) _ rest rfl data
          rfl
    · rcases List.mem_append.mp member with called | waiting
      · have onStack := onStack_of_called called
        obtain rfl := senders.stack l c data T onStack
        exact none data ⟨here, onStack⟩
      · exact here ((placed.loops l).waiting _ waiting).2.symm
  · obtain ⟨task, calling, sent⟩ := (Option.any_eq_true _ _).mp sent
    obtain ⟨data, rfl⟩ := Task.isSendOf_eq sent
    obtain rfl := senders.calling t c data T calling
    exact none data calling

theorem sendWaiting_iff {w : World} (inRange : w.InRange) (placed : w.Placed) {c : ConnId}
    {T : Caller} : w.sendWaiting c T = true ↔ ∃ data, w.Waits (.sendInLoop c data T) := by
  rw [sendWaiting, Bool.or_eq_true, List.any_eq_true, List.any_eq_true]
  constructor
  · rintro (⟨l, _, sent⟩ | ⟨t, _, sent⟩)
    · obtain ⟨task, member, sent⟩ := List.any_eq_true.mp sent
      obtain ⟨data, rfl⟩ := Task.isSendOf_eq sent
      exact ⟨data, .inl ⟨l, member⟩⟩
    · obtain ⟨task, calling, sent⟩ := (Option.any_eq_true _ _).mp sent
      obtain ⟨data, rfl⟩ := Task.isSendOf_eq sent
      exact ⟨data, .inr ⟨t, calling⟩⟩
  · rintro ⟨data, waits⟩
    have sent : Task.isSendOf c T (.sendInLoop c data T) = true := by simp [Task.isSendOf]
    rcases inRange.waits placed waits with ⟨l, within, member⟩ | ⟨t, within, calling⟩
    · exact .inl ⟨l, List.mem_range.mpr (Nat.lt_succ_of_le within),
        List.any_eq_true.mpr ⟨_, member, sent⟩⟩
    · exact .inr ⟨t, List.mem_range.mpr within, (Option.any_eq_true _ _).mpr ⟨_, calling, sent⟩⟩

theorem exchanges_of_not_only {T : Caller} {c : ConnId} {a : Action}
    (others : ¬ OnlyShutdownBy T c a) : Exchanges a c := by
  cases a with
  | userShutdown l c' =>
      obtain ⟨rfl, _⟩ := Classical.not_imp.mp others
      exact .inl ⟨l, rfl⟩
  | shutdown t c' =>
      obtain ⟨rfl, _⟩ := Classical.not_imp.mp others
      exact .inr ⟨t, rfl⟩
  | _ => exact absurd trivial others

/-- The sends of `T` come first, or there are none and none is accepted any more. -/
def SendsDone (w : World) (T : Caller) (c : ConnId) : Prop :=
  w.SendsFirst T c ∨
    w.sendWaiting c T = false ∧ w.Up c ∧ (w.conns c).conn.state ≠ .connected

/-- A functor of `shutdown` that runs has no send of `T` left behind it, whoever called. -/
theorem SendsDone.none_waiting {w : World} {T : Caller} {c : ConnId} (done : w.SendsDone T c)
    (placed : w.Placed) (senders : w.SendersOk)
    (current : w.current (w.conns c).conn.loop = some (.task (.shutdownInLoop c))) :
    w.sendWaiting c T = false := by
  rcases done with sends | ⟨none, _⟩
  · exact sends.none_waiting placed senders current
  · exact none

/-- The write side is not shut down while a send of `T` waits or bytes are readable: `w` is the
state in which the job runs and `after` the connection behind it. -/
theorem Deed.shuts {w : World} {T : Caller} {l : LoopId} {kernel : Kernel} {job : Job}
    {after : TcpConnection} {events : List Event} (placed : w.Placed) (senders : w.SendersOk)
    (sends : w.SendsDone T job.conn) (kept : w.InterestKept job.conn)
    (drains : w.DrainsInOrder T job.conn kernel job) (current : w.current l = some job)
    (here : w.RunsHere l job) (fits : w.KernelFits kernel job)
    (deed : Deed l kernel (w.conns job.conn).conn job after events)
    (shut : after.socket.shutdownWrites ≠ (w.conns job.conn).conn.socket.shutdownWrites) :
    w.sendWaiting job.conn T = false ∧ after.outputBuffer.readableBytes = 0 := by
  cases deed with
  | shutdown c =>
      obtain rfl : (w.conns c).conn.loop = l := here
      refine ⟨sends.none_waiting placed senders current, ?_⟩
      dsimp only [Job.conn, Task.conn] at shut sends kept drains ⊢
      rw [TcpConnection.shutdownInLoop_eq] at shut ⊢
      have still : (w.conns c).conn.channel.isWriting = false := by
        by_contra writing
        exact shut (by dsimp only; rw [if_neg writing])
      by_cases ended : w.Closed c ∨ w.Destroyed c
      · rcases drains.2 rfl ended with writing | empty
        · exact absurd still (by simp [writing])
        · exact empty
      · have empty := (kept (fun closed => ended (.inl closed))
          (fun destroyed => ended (.inr destroyed))).drained still
        exact (SafeBuffer.readableBytes_eq_zero_iff _).mpr empty
  | write c =>
      dsimp only [Job.conn] at shut sends drains ⊢
      cases (w.conns c).conn.handleWrite_effect fits with
      | idle still same | failed writing errno answer same
      | kept writing n answer buffer contents pending same =>
          rw [same] at shut
          exact absurd rfl shut
      | drained writing n answer some buffer contents empty same =>
          have disconnecting : (w.conns c).conn.state = .disconnecting := by
            by_contra other
            refine shut ?_
            rw [same]
            dsimp only
            rw [if_neg other]
            rfl
          have all : (w.conns c).conn.outputBuffer.readableBytes ≤ n + n := by
            rw [← SafeBuffer.length_contents]
            rwa [List.drop_drop, List.drop_eq_nil_iff] at contents
          refine ⟨drains.1 rfl disconnecting ?_, ?_⟩
          · rw [answer]
            simp [TcpConnection.drains, writing, some, all]
          · rw [same]
            exact (SafeBuffer.readableBytes_eq_zero_iff _).mpr empty
  | send c data caller =>
      exact absurd ((w.conns c).conn.sendInLoop_shutdownWrites data kernel.write) shut
  | destroy c =>
      refine absurd ?_ shut
      rw [TcpConnection.connectDestroyed]
      split <;> rfl
  | establish c | remove c | other job | close callback c input closing | error c
  | read c input events received | closeCallback c | removeChannel c => exact absurd rfl shut

end World

/-- A send that waits behind a step waited before, or the step has found `Connected`. -/
theorem sendWaiting_of_next {w : World} (reachable : server.Reachable w) {a : Action}
    (guard : w.Enabled a) {c : ConnId} {T : Caller}
    (waiting : (w.next a).sendWaiting c T = true) :
    w.sendWaiting c T = true ∨ (w.conns c).conn.state = .connected ∧ ¬ World.Exchanges a c := by
  have placed := placed reachable
  have before := inRange reachable
  obtain ⟨data, waits⟩ :=
    (World.sendWaiting_iff (before.next placed guard) (placed.next guard)).mp waiting
  rw [World.sendWaiting_iff before placed]
  rcases World.Waits.of_next placed guard waits with old | ⟨l, pushed⟩ | ⟨l, appended⟩ | ⟨t, called⟩
  · exact .inl ⟨data, old⟩
  · cases pushed with
    | sendInLoop _ _ running connected =>
        refine .inr ⟨of_decide_eq_true connected, ?_⟩
        rw [running]
        rintro (⟨l', other⟩ | ⟨t', other⟩) <;> cases other
  · rcases appended.call rfl with ⟨l', _, _, top⟩ | ⟨t, _, calling⟩
    · exact .inl ⟨data, .inl ⟨l', World.mem_tasks_of_onStack (World.submitted_onStack top)⟩⟩
    · exact .inl ⟨data, .inr ⟨t, calling⟩⟩
  · cases called with
    | sendInLoop _ _ running connected =>
        refine .inr ⟨of_decide_eq_true connected, ?_⟩
        rw [running]
        rintro (⟨l', other⟩ | ⟨t', other⟩) <;> cases other

theorem sendsDone_next {w : World} (reachable : server.Reachable w) {T : Caller} {c : ConnId}
    {a : Action} (guard : w.Enabled a) (shuts : World.ShutsBehind T c w a) (known : c < w.created)
    (done : w.SendsDone T c) : (w.next a).SendsDone T c := by
  have later := (placed reachable).next_extends guard
  rcases done with sends | ⟨none, up, unconnected⟩
  · by_cases only : (w.conns c).conn.state = .connected → OnlyShutdownBy T c a
    · exact .inl (sendsFirst_next reachable guard only known sends)
    · -- somebody else has made the exchange, behind all sends of `T`
      obtain ⟨connected, others⟩ := Classical.not_imp.mp only
      have exchanges := World.exchanges_of_not_only others
      have up : w.Up c := exchanges.up (placed reachable) guard
      refine .inr ⟨?_, up.mono later, by rw [World.exchanged_state w exchanges]; exact nofun⟩
      rw [← Bool.not_eq_true]
      intro waiting
      rcases sendWaiting_of_next reachable guard waiting with old | ⟨_, other⟩
      · rw [(shuts connected).resolve_left others] at old
        cases old
      · exact other exchanges
  · refine .inr ⟨?_, up.mono later, fun connected => ?_⟩
    · rw [← Bool.not_eq_true]
      intro waiting
      rcases sendWaiting_of_next reachable guard waiting with old | ⟨connected, _⟩
      · rw [none] at old
        cases old
      · exact unconnected connected
    · exact unconnected (World.connected_of_next (establishToken reachable) guard up connected)

theorem sendsDone {w : World} {T : Caller} {c : ConnId}
    (reachable : (server.restrict (World.ShutsBehind T c)).Reachable w) (known : c < w.created) :
    w.SendsDone T c := by
  revert known
  refine reachable.invariant (I := fun w => c < w.created → w.SendsDone T c) ?_ ?_
  · rintro w ⟨name, ipPort, callbacks, ioLoops, users, rfl⟩ known
    exact absurd known (Nat.not_lt_zero c)
  · intro w a before done guard known'
    rcases Nat.lt_or_ge c w.created with known | unknown
    · exact sendsDone_next before.of_restrict guard.1 guard.2 known (done known)
    · exact .inl (sendsFirst_fresh before.of_restrict guard.1 unknown T)

/-- A thread that sends and then shuts down is not overtaken: at every `shutdownWrite` all its
sends have run and the output buffer is empty, in every run in which the buffer is drained in order
and nobody else calls `shutdown` while a send of the thread waits. -/
theorem shutdown_behind_sends {w : World} {T : Caller} {c : ConnId}
    (reachable : (server.restrict (World.OrderlyShutdown T c)).Reachable w) (known : c < w.created)
    {a : Action} (guard : (server.restrict (World.OrderlyShutdown T c)).enabled w a)
    (shut : ((w.next a).conns c).conn.socket.shutdownWrites ≠
      (w.conns c).conn.socket.shutdownWrites) :
    w.sendWaiting c T = false ∧ ((w.next a).conns c).conn.outputBuffer.readableBytes = 0 := by
  have plain := reachable.of_restrict
  have sends := sendsDone (reachable.restrict_mono fun _ _ orderly => orderly.1) known
  have change := World.next_change guard.1 c
  generalize (w.next a).conns c = tracked at change shut ⊢
  cases change with
  | constructed new => exact absurd new (Nat.ne_of_lt known)
  | performed l kernel job running current about here fits after events conn log deed =>
      subst about running
      exact deed.shuts (placed plain) (sendersOk plain) sends (interestKept plain job.conn)
        (guard.2.2 job current) current here fits shut
  | same | exchanged call | marked mark | retrieved len => exact absurd rfl shut

/-- A user thread sends and shuts down; loop 1 has run the send. -/
def demoShutdown : List Action :=
  [.send 0 0 [1], .queueInLoop 0, .shutdown 0 0, .queueInLoop 0, .poll 1 [],
    .doPendingFunctors 1, .run 1 demoKernel]

/-- The hypotheses are met by a thread whose send is written at once. -/
theorem shutdown_behind_sends_demo :
    (server.exec (demoServer 1 1) (demoOpening ++ demoShutdown)).sendWaiting 0 (.thread 0) =
      false := by
  have admitted : (server.restrict (World.OrderlyShutdown (.thread 0) 0)).Admits (demoServer 1 1)
      (demoOpening ++ demoShutdown) := by decide +kernel
  have reachable := admitted.reachable (demoServer_initial 1 1)
  rw [Machine.restrict_exec] at reachable
  exact (shutdown_behind_sends reachable (a := .run 1 demoKernel) (by decide +kernel)
    ⟨by decide +kernel, by decide +kernel⟩ (by decide +kernel)).1

/-- The first byte of a thread is buffered.  The thread sends another one and shuts down; the drain
of the first byte finds `Disconnecting` and shuts the write side down before the second is sent. -/
theorem drain_overtakes_queued_send :
    ¬ ∀ (w : World) (T : Caller) (c : ConnId) (a : Action),
      (server.restrict fun _ a => OnlyShutdownBy T c a).Reachable w → c < w.created →
        (server.restrict fun _ a => OnlyShutdownBy T c a).enabled w a →
          ((w.next a).conns c).conn.socket.shutdownWrites ≠
            (w.conns c).conn.socket.shutdownWrites →
              w.sendWaiting c T = false ∧
                ((w.next a).conns c).conn.outputBuffer.readableBytes = 0 := by
  intro claim
  have admitted : (server.restrict fun _ a => OnlyShutdownBy (.thread 0) 0 a).Admits
      (demoServer 1 1) (demoOpening ++ [.send 0 0 [1], .queueInLoop 0, .poll 1 [],
        .doPendingFunctors 1, .run 1 ⟨.data [], .failed EAGAIN⟩, .endBatch 1, .send 0 0 [2],
        .queueInLoop 0, .shutdown 0 0, .poll 1 [.channel 0 EPOLLOUT], .handleEvent 1 true]) := by
    decide +kernel
  have reachable := admitted.reachable (demoServer_initial 1 1)
  rw [Machine.restrict_exec] at reachable
  have behind := claim _ (.thread 0) 0 (.run 1 demoKernel) reachable (by decide +kernel)
    ⟨by decide +kernel, trivial⟩ (by decide +kernel)
  exact absurd behind.1 (by decide +kernel)

end EduMuduo

/-
Module: EduMuduo.Proofs.Announcement
Layer: Proofs
Purpose: Whether a connection that was announced up is announced down.  `handleClose` always
  announces; `connectDestroyed` announces only what it finds `Connected`.  A connection that
  `shutdown` has made `Disconnecting` and that `~TcpServer` destroys is announced by neither.
Imports: EduMuduo.Proofs.ClosedConnection
Trusted boundary: none
Main exports: FoundConnected, down_announced, shutdown_destroyed_silently
-/
import EduMuduo.Proofs.ClosedConnection

namespace EduMuduo

open Library

namespace World

/-- `connectDestroyed` has begun on the connection's loop. -/
def Destroyed (w : World) (c : ConnId) : Prop :=
  .connectDestroyed (w.conns c).conn.loop ∈ (w.conns c).history

/-- The first `connectDestroyed` finds the connection `Connected`, or closed by `handleClose`. -/
def FoundConnected (w : World) (_kernel : Kernel) (job : Job) : Prop :=
  job = .task (.connectDestroyed job.conn) →
    (w.conns job.conn).conn.callbacks.connectionCallback = true →
      (w.conns job.conn).conn.state = .connected ∨ w.Closed job.conn ∨ w.Destroyed job.conn

instance (w : World) (c : ConnId) : Decidable (w.Destroyed c) :=
  inferInstanceAs (Decidable (_ ∈ _))

instance (w : World) (kernel : Kernel) (job : Job) : Decidable (w.FoundConnected kernel job) :=
  inferInstanceAs (Decidable (_ → _))

/-- No job sets or clears a callback. -/
theorem Deed.callbacks {w : World} {l : LoopId} {kernel : Kernel} {job : Job}
    {after : TcpConnection} {events : List Event}
    (deed : Deed l kernel (w.conns job.conn).conn job after events)
    (fits : w.KernelFits kernel job) :
    after.callbacks = (w.conns job.conn).conn.callbacks := by
  cases deed with
  | destroy c =>
      rw [TcpConnection.connectDestroyed]
      split <;> rfl
  | send c data caller => exact TcpConnection.sendInLoop_callbacks _ data kernel.write
  | shutdown c => rw [TcpConnection.shutdownInLoop_eq]
  | write c => exact TcpConnection.handleWrite_callbacks _ fits
  | establish c | remove c | other job | close callback c input closing | error c
  | read c input events received | closeCallback c | removeChannel c => rfl

/-- What ends a connection has announced it down. -/
def AnnouncedDown (w : World) (c : ConnId) : Prop :=
  (w.conns c).conn.callbacks.connectionCallback = true → w.Closed c ∨ w.Destroyed c →
    .connectionCallback false ∈ (w.conns c).history

/-- A job that ends its connection announces it down, unless an earlier one did. -/
theorem Deed.announces {w : World} {l : LoopId} {kernel : Kernel} {job : Job}
    {after : TcpConnection} {events : List Event}
    (deed : Deed l kernel (w.conns job.conn).conn job after events)
    (wanted : (w.conns job.conn).conn.callbacks.connectionCallback = true)
    (found : w.FoundConnected kernel job)
    (ends : .handleClose ∈ events ∨ .connectDestroyed (w.conns job.conn).conn.loop ∈ events) :
    .connectionCallback false ∈ events ∨ w.Closed job.conn ∨ w.Destroyed job.conn := by
  cases deed with
  | close callback c input closing =>
      refine .inl ?_
      rw [if_pos wanted]
      simp
  | destroy c =>
      refine (found rfl wanted).imp_left fun connected => ?_
      have announces : (w.conns (Job.task (.connectDestroyed c)).conn).conn.connectDestroyed.2 =
          true := by
        rw [TcpConnection.connectDestroyed, if_pos connected]
        exact wanted
      rw [if_pos announces]
      simp
  | establish c => split at ends <;> simp at ends
  | read c input events received => rcases received with rfl | ⟨rfl, _⟩ <;> simp at ends
  | remove c | send c data caller | shutdown c | other job | error c | write c | closeCallback c
  | removeChannel c => simp at ends

theorem AnnouncedDown.next {w : World} (placed : w.Placed) {a : Action} (guard : w.Enabled a)
    (found : w.OnJobs FoundConnected a) {c : ConnId} (announced : w.AnnouncedDown c) :
    (w.next a).AnnouncedDown c := by
  have change := next_change guard c
  rw [AnnouncedDown, Closed, Destroyed]
  rw [AnnouncedDown, Closed, Destroyed] at announced
  generalize (w.next a).conns c = tracked at change ⊢
  cases change with
  | same => exact announced
  | constructed new => exact fun _ ends => by simp at ends
  | performed l kernel job running current about here fits after events conn log deed =>
      subst about running
      intro wanted ends
      rw [deed.callbacks fits] at wanted
      have sameLoop : after.loop = (w.conns job.conn).conn.loop := by
        rw [conn]
        exact (perform_ok placed (placed.current_ok current) here fits).loop
      dsimp only at ends
      rw [sameLoop, List.mem_append, List.mem_append] at ends
      have earlier : w.Closed job.conn ∨ w.Destroyed job.conn →
          .connectionCallback false ∈ (w.conns job.conn).history ++ events :=
        fun before => List.mem_append_left _ (announced wanted before)
      have fresh : .handleClose ∈ events ∨
          .connectDestroyed (w.conns job.conn).conn.loop ∈ events →
          .connectionCallback false ∈ (w.conns job.conn).history ++ events := by
        intro now
        rcases deed.announces wanted (found job current) now with announces | before
        · exact List.mem_append_right _ announces
        · exact earlier before
      rcases ends with (before | now) | (before | now)
      · exact earlier (.inl before)
      · exact fresh (.inl now)
      · exact earlier (.inr before)
      · exact fresh (.inr now)
  | exchanged call => exact announced
  | marked mark => exact announced
  | retrieved len => exact announced

end World

theorem announcedDown {w : World}
    (reachable : (server.restrict (World.OnJobs World.FoundConnected)).Reachable w) (c : ConnId) :
    w.AnnouncedDown c := by
  refine reachable.invariant (I := fun w => w.AnnouncedDown c) ?_ ?_
  · rintro w ⟨name, ipPort, callbacks, ioLoops, users, rfl⟩ _ ends
    rcases ends with closed | destroyed
    · exact absurd closed List.not_mem_nil
    · exact absurd destroyed List.not_mem_nil
  · exact fun w a before announced guard =>
      announced.next (placed before.of_restrict) guard.1 guard.2

/-- `connectDestroyed` returns only where it has begun. -/
theorem destroyed_of_returned {w : World} (reachable : server.Reachable w) {c : ConnId}
    (returned : .connectDestroyedReturned ∈ (w.conns c).history) : w.Destroyed c := by
  revert returned
  refine reachable.invariant
    (I := fun w => .connectDestroyedReturned ∈ (w.conns c).history → w.Destroyed c) ?_ ?_
  · rintro w ⟨name, ipPort, callbacks, ioLoops, users, rfl⟩ returned
    exact absurd returned List.not_mem_nil
  · intro w a before destroyed guard returned
    have old := placed before
    rcases Nat.lt_or_ge c w.created with known | unknown
    · have later := old.next_extends guard
      have still : w.Destroyed c → (w.next a).Destroyed c := by
        intro destroyed
        rw [World.Destroyed, later.loop c known]
        exact later.history c known _ destroyed
      rcases World.mem_next_history guard returned (Nat.ne_of_lt known) with
        already | ⟨l, kernel, job, running, current, about, here, emits⟩
      · exact still (destroyed already)
      · have ok := old.current_ok current
        cases emits with
        | returned c' =>
            obtain rfl : c' = c := about
            refine still ?_
            rw [World.Destroyed, ok.2.1]
            exact ok.2.2
    · have blank := old.next_history_unknown guard unknown
      change _ ∈ ((w.next a).conns c).history at returned
      rw [blank] at returned
      exact absurd returned List.not_mem_nil

/-- Every connection is announced down before `connectDestroyed` returns, as long as the first
`connectDestroyed` of a connection finds it `Connected` or closed. -/
theorem down_announced {w : World}
    (reachable : (server.restrict (World.OnJobs World.FoundConnected)).Reachable w) {c : ConnId}
    (wanted : (w.conns c).conn.callbacks.connectionCallback = true)
    (returned : .connectDestroyedReturned ∈ (w.conns c).history) :
    .connectionCallback false ∈ (w.conns c).history :=
  announcedDown reachable c wanted (.inr (destroyed_of_returned reachable.of_restrict returned))

/-- The hypotheses are met by a connection that the peer closes. -/
theorem down_announced_demo :
    .connectionCallback false ∈ ((server.exec (demoServer 1 1) (demoOpening ++ demoClosing ++
      [.userReturn 1, .run 1 demoKernel, .run 1 demoKernel, .doPendingFunctors 0,
        .run 0 demoKernel, .doPendingFunctors 1, .run 1 demoKernel,
        .run 1 demoKernel])).conns 0).history := by
  have admitted : (server.restrict (World.OnJobs World.FoundConnected)).Admits (demoServer 1 1)
      (demoOpening ++ demoClosing ++
      [.userReturn 1, .run 1 demoKernel, .run 1 demoKernel, .doPendingFunctors 0,
        .run 0 demoKernel, .doPendingFunctors 1, .run 1 demoKernel, .run 1 demoKernel]) := by
    decide +kernel
  have reachable := admitted.reachable (demoServer_initial 1 1)
  rw [Machine.restrict_exec] at reachable
  exact down_announced reachable (by decide +kernel) (by decide +kernel)

/-- A thread calls `shutdown`, then `~TcpServer` destroys the connection: `connectDestroyed` finds
it `Disconnecting` and returns without a word. -/
theorem shutdown_destroyed_silently :
    ¬ ∀ (w : World) (c : ConnId), server.Reachable w →
      .connectEstablished (w.conns c).conn.loop ∈ (w.conns c).history →
      (w.conns c).conn.callbacks.connectionCallback = true →
      .connectDestroyedReturned ∈ (w.conns c).history →
        .connectionCallback false ∈ (w.conns c).history := by
  intro claim
  have admitted : server.Admits (demoServer 1 1) (demoOpening ++
      [.shutdown 0 0, .queueInLoop 0, .doPendingFunctors 0, .quit 0, .endBatch 0, .destroyServer,
        .destroyConnection 0, .poll 1 [], .doPendingFunctors 1, .run 1 demoKernel,
        .run 1 demoKernel, .run 1 demoKernel]) := by decide +kernel
  have announced := claim _ 0 (admitted.reachable (demoServer_initial 1 1)) (by decide +kernel)
    (by decide +kernel) (by decide +kernel)
  exact absurd announced (by decide +kernel)

end EduMuduo

/-
Module: EduMuduo.Proofs.ShutdownKept
Layer: Proofs
Purpose: Whether a call of `shutdown` takes effect.  `shutdownInLoop` leaves the descriptor alone
  while write interest is on, and then relies on the `handleWrite` that empties the buffer; that
  one looks at the state, which `shutdown` has set before it queued anything.  So at any time a
  functor is on its way, or the drain is still to come, or the write side is shut down.
Imports: EduMuduo.Proofs.ShutdownOrder, EduMuduo.Proofs.Range
Trusted boundary: none
Main exports: standing, TcpConnection.ShutdownKept, shutdownPromised, shutdown_never_lost
-/
import EduMuduo.Proofs.ShutdownOrder
import EduMuduo.Proofs.Range

namespace EduMuduo

open Library

namespace World

/-! ### The state of a connection that is not ended -/

/-- Between `connectEstablished` and its end a connection is `Connected` or `Disconnecting`. -/
def Standing (w : World) (c : ConnId) : Prop :=
  w.Up c → ¬ w.Closed c → ¬ w.Destroyed c →
    (w.conns c).conn.state = .connected ∨ (w.conns c).conn.state = .disconnecting

/-- A job that does not end its connection establishes it or keeps its state. -/
theorem Deed.state {w : World} {l : LoopId} {kernel : Kernel} {job : Job} {after : TcpConnection}
    {events : List Event} (deed : Deed l kernel (w.conns job.conn).conn job after events)
    (here : w.RunsHere l job) (fits : w.KernelFits kernel job)
    (unclosed : .handleClose ∉ events)
    (undestroyed : .connectDestroyed (w.conns job.conn).conn.loop ∉ events) :
    after.state = .connected ∨
      after.state = (w.conns job.conn).conn.state ∧ ∀ l', .connectEstablished l' ∉ events := by
  cases deed with
  | establish c => exact .inl rfl
  | destroy c =>
      obtain rfl : (w.conns c).conn.loop = l := here
      exact absurd List.mem_cons_self undestroyed
  | close callback c input closing => exact absurd (by simp) unclosed
  | send c data caller => exact .inr ⟨TcpConnection.sendInLoop_state _ data kernel.write, by simp⟩
  | shutdown c => exact .inr ⟨by rw [TcpConnection.shutdownInLoop_eq], by simp⟩
  | write c => exact .inr ⟨TcpConnection.handleWrite_state _ fits, by simp⟩
  | read c input events received =>
      refine .inr ⟨rfl, fun l' => ?_⟩
      rcases received with rfl | ⟨rfl, _⟩ <;> simp
  | remove c | other job | error c | closeCallback c | removeChannel c => exact .inr ⟨rfl, by simp⟩

theorem Standing.next {w : World} (placed : w.Placed) {a : Action} (guard : w.Enabled a)
    {c : ConnId} (standing : w.Standing c) : (w.next a).Standing c := by
  intro up unclosed undestroyed
  rcases Nat.lt_or_ge c w.created with known | unknown
  · have later := placed.next_extends guard
    have sameLoop := later.loop c known
    have unclosed' : ¬ w.Closed c := fun closed => unclosed (later.history c known _ closed)
    have undestroyed' : ¬ w.Destroyed c := by
      intro destroyed
      refine undestroyed ?_
      rw [Destroyed, sameLoop]
      exact later.history c known _ destroyed
    have event := up.2
    rw [Closed] at unclosed
    rw [Destroyed, sameLoop] at undestroyed
    rw [sameLoop] at event
    have change := next_change guard c
    generalize (w.next a).conns c = tracked at change unclosed undestroyed event ⊢
    cases change with
    | same => exact standing ⟨known, event⟩ unclosed' undestroyed'
    | constructed new => exact absurd new (Nat.ne_of_lt known)
    | performed l kernel job running current about here fits after events conn log deed =>
        subst about
        rcases deed.state here fits (fun closed => unclosed (List.mem_append_right _ closed))
            fun destroyed => undestroyed (List.mem_append_right _ destroyed) with
          connected | ⟨same, established⟩
        · exact .inl connected
        · have old := (List.mem_append.mp event).resolve_right (established _)
          dsimp only
          rw [same]
          exact standing ⟨known, old⟩ unclosed' undestroyed'
    | exchanged call => exact .inr rfl
    | marked mark => exact standing ⟨known, event⟩ unclosed' undestroyed'
    | retrieved len => exact standing ⟨known, event⟩ unclosed' undestroyed'
  · have blank := placed.next_history_unknown guard unknown
    have event := up.2
    rw [blank] at event
    exact absurd event List.not_mem_nil

end World

theorem standing {w : World} (reachable : server.Reachable w) (c : ConnId) : w.Standing c := by
  refine reachable.invariant (I := fun w => w.Standing c) ?_
    fun w a before standing guard => standing.next (placed before) guard
  rintro w ⟨name, ipPort, callbacks, ioLoops, users, rfl⟩ up
  exact absurd up.1 (Nat.not_lt_zero c)

/-! ### The drain that shuts down -/

namespace TcpConnection

/-- The write side is shut down, or there is a drain to come that will do it. -/
def ShutdownKept (self : TcpConnection) : Prop :=
  self.channel.isWriting = true ∨ 0 < self.socket.shutdownWrites

/-- Running the functor of `shutdown` makes it so. -/
theorem shutdownInLoop_shutdownKept (self : TcpConnection) :
    self.shutdownInLoop.ShutdownKept := by
  rw [shutdownInLoop_eq]
  cases writing : self.channel.isWriting with
  | true => exact .inl writing
  | false => exact .inr (Nat.succ_pos _)

/-- Sending never takes write interest away. -/
theorem sendInLoop_shutdownKept {self : TcpConnection} (kept : self.ShutdownKept)
    (data : List Byte) (result : WriteResult) :
    (self.sendInLoop data result).1.ShutdownKept := by
  have writes := self.sendInLoop_shutdownWrites data result
  rcases kept with writing | shut
  · refine .inl ?_
    cases self.sendInLoop_effect data result with
    | written idle _ _ _ _ _ => exact absurd writing (by simp [idle])
    | discarded idle _ _ _ _ _ => exact absurd writing (by simp [idle])
    | split _ _ _ _ _ same =>
        rw [same]
        exact PolledChannel.change_isWriting _ _
    | buffered _ _ same =>
        rw [same]
        dsimp only
        rw [if_neg (by simp [writing])]
        exact writing
    | nothing _ _ same => rwa [same]
  · exact .inr (writes ▸ shut)

/-- Where write interest goes, the state is looked at. -/
theorem handleWrite_shutdownKept {self : TcpConnection} (kept : self.ShutdownKept)
    (disconnecting : self.state = .disconnecting) {result : WriteResult}
    (fits : result.Fits self.outputBuffer.readableBytes) :
    (self.handleWrite result).1.ShutdownKept := by
  cases self.handleWrite_effect fits with
  | idle _ same => rwa [same]
  | failed _ _ _ same => rw [same]; exact kept
  | kept _ _ _ _ _ _ same => rw [same]; exact kept
  | drained _ _ _ _ _ _ _ same =>
      rw [same]
      refine .inr ?_
      dsimp only
      rw [if_pos disconnecting]
      exact Nat.succ_pos _

end TcpConnection

namespace World

/-- A `Disconnecting` connection is shut down, or it will be. -/
def ShutdownPromised (w : World) (c : ConnId) : Prop :=
  ¬ w.Closed c → ¬ w.Destroyed c → (w.conns c).conn.state = .disconnecting →
    w.ShutdownWaiting c ∨ (w.conns c).conn.ShutdownKept

/-- The exchange that finds `Connected` goes on to call `shutdownInLoop`. -/
theorem Exchanges.waits {w : World} {a : Action} {c : ConnId} (exchanges : Exchanges a c)
    (connected : (w.conns c).conn.state = .connected) : (w.next a).ShutdownWaiting c := by
  have found : (w.conns c).conn.exchangeDisconnecting.2 = true := by
    simpa [TcpConnection.exchangeDisconnecting] using connected
  rcases exchanges with ⟨l, rfl⟩ | ⟨t, rfl⟩
  · refine .inl ⟨l, ?_⟩
    simp only [World.next, if_pos found]
    rw [tasks_setLoop, if_pos rfl, Loop.tasks_push]
    exact List.mem_append_left _ (List.mem_singleton_self _)
  · refine .inr ⟨t, ?_⟩
    simp only [World.next, if_pos found]
    rw [setThread_threads, Function.update_self]

/-- A job on a connection that stays `Disconnecting` does not undo it. -/
theorem Deed.shutdownKept {w : World} {l : LoopId} {kernel : Kernel} {job : Job}
    {after : TcpConnection} {events : List Event}
    (deed : Deed l kernel (w.conns job.conn).conn job after events)
    (here : w.RunsHere l job) (fits : w.KernelFits kernel job)
    (unclosed : .handleClose ∉ events)
    (undestroyed : .connectDestroyed (w.conns job.conn).conn.loop ∉ events)
    (disconnecting : (w.conns job.conn).conn.state = .disconnecting)
    (kept : (w.conns job.conn).conn.ShutdownKept) : after.ShutdownKept := by
  cases deed with
  | shutdown c => exact TcpConnection.shutdownInLoop_shutdownKept _
  | send c data caller => exact TcpConnection.sendInLoop_shutdownKept kept data kernel.write
  | write c => exact TcpConnection.handleWrite_shutdownKept kept disconnecting fits
  | establish c =>
      refine kept.imp_left fun writing => ?_
      simpa [TcpConnection.connectEstablished] using writing
  | destroy c =>
      obtain rfl : (w.conns c).conn.loop = l := here
      exact absurd List.mem_cons_self undestroyed
  | close callback c input closing => exact absurd (by simp) unclosed
  | removeChannel c =>
      exact kept.imp_left fun writing => (PolledChannel.remove_isWriting _).trans writing
  | remove c | other job | error c | read c input events received | closeCallback c => exact kept

/-- The promise when a job runs. -/
theorem ShutdownPromised.run {w : World} (placed : w.Placed) {l : LoopId} {kernel : Kernel}
    (guard : w.Enabled (.run l kernel)) {c : ConnId} (known : c < w.created)
    (promised : w.ShutdownPromised c) : (w.next (.run l kernel)).ShutdownPromised c := by
  obtain ⟨job, loop, fetched, current, here, fits⟩ := enabled_run guard
  have sameLoop := (placed.next_extends guard).loop c known
  have goesOn : w.ShutdownWaiting c →
      job = .task (.shutdownInLoop c) ∨ (w.next (.run l kernel)).ShutdownWaiting c := by
    intro waiting
    rcases Waits.next placed guard waiting with ⟨l', kernel', running, called⟩ | waits
    · cases running
      rw [current] at called
      exact .inl (Option.some.inj called)
    · exact .inr waits
  rw [ShutdownPromised, Closed, Destroyed] at promised ⊢
  rw [sameLoop, run_conns fetched, Function.update_apply]
  split
  · rename_i about
    subst about
    intro unclosed undestroyed disconnecting
    have unclosed' : .handleClose ∉ (w.conns job.conn).history :=
      fun closed => unclosed (List.mem_append_left _ closed)
    have undestroyed' : .connectDestroyed (w.conns job.conn).conn.loop ∉
        (w.conns job.conn).history :=
      fun destroyed => undestroyed (List.mem_append_left _ destroyed)
    have closing : .handleClose ∉ (w.perform l kernel job).events :=
      fun closed => unclosed (List.mem_append_right _ closed)
    have destroying : .connectDestroyed (w.conns job.conn).conn.loop ∉
        (w.perform l kernel job).events :=
      fun destroyed => undestroyed (List.mem_append_right _ destroyed)
    have deed := w.perform_deed l kernel job
    rcases deed.state here fits closing destroying with connected | ⟨same, _⟩
    · rw [connected] at disconnecting
      cases disconnecting
    · have before := same.symm.trans disconnecting
      rcases promised unclosed' undestroyed' before with waiting | kept
      · rcases goesOn waiting with functor | waits
        · rw [functor]
          exact .inr (TcpConnection.shutdownInLoop_shutdownKept _)
        · exact .inl waits
      · exact .inr (deed.shutdownKept here fits closing destroying before kept)
  · rename_i other
    intro unclosed undestroyed disconnecting
    rcases promised unclosed undestroyed disconnecting with waiting | kept
    · rcases goesOn waiting with functor | waits
      · exact absurd (by rw [functor]; rfl) other
      · exact .inl waits
    · exact .inr kept

/-- The promise when no job runs: an exchange gives it, and nothing else touches it. -/
theorem ShutdownPromised.idle {w : World} (placed : w.Placed) {a : Action} (guard : w.Enabled a)
    (idle : ∀ l kernel, a ≠ .run l kernel) {c : ConnId} (known : c < w.created)
    (standing : w.Standing c) (promised : w.ShutdownPromised c) :
    (w.next a).ShutdownPromised c := by
  have sameLoop := (placed.next_extends guard).loop c known
  have kept : (w.conns c).conn.state = .disconnecting →
      ¬ w.Closed c → ¬ w.Destroyed c → (w.next a).ShutdownWaiting c ∨
        (w.conns c).conn.ShutdownKept := by
    intro before unclosed undestroyed
    refine (promised unclosed undestroyed before).imp_left fun waiting => ?_
    rcases Waits.next placed guard waiting with ⟨l, kernel, running, _⟩ | waits
    · exact absurd running (idle l kernel)
    · exact waits
  rw [ShutdownPromised, Closed, Destroyed, sameLoop]
  have change := next_change guard c
  generalize (w.next a).conns c = tracked at change ⊢
  intro unclosed undestroyed disconnecting
  cases change with
  | same => exact kept disconnecting unclosed undestroyed
  | constructed new => exact absurd new (Nat.ne_of_lt known)
  | performed l kernel job running => exact absurd running (idle l kernel)
  | exchanged call =>
      rcases standing (Exchanges.up placed guard call) unclosed undestroyed with
        connected | before
      · exact .inl (Exchanges.waits call connected)
      · exact kept before unclosed undestroyed
  | marked mark => exact kept disconnecting unclosed undestroyed
  | retrieved len => exact kept disconnecting unclosed undestroyed

end World

/-- Jobs do not make a connection `Disconnecting`. -/
theorem World.Deed.disconnecting {w : World} {l : LoopId} {kernel : Kernel} {job : Job}
    {after : TcpConnection} {events : List Event}
    (deed : World.Deed l kernel (w.conns job.conn).conn job after events)
    (fits : w.KernelFits kernel job) (disconnecting : after.state = .disconnecting) :
    (w.conns job.conn).conn.state = .disconnecting := by
  cases deed with
  | establish c => cases disconnecting
  | close callback c input closing => cases disconnecting
  | destroy c =>
      rw [TcpConnection.connectDestroyed_state] at disconnecting
      cases disconnecting
  | send c data caller =>
      rwa [TcpConnection.sendInLoop_state] at disconnecting
  | shutdown c => rwa [TcpConnection.shutdownInLoop_eq] at disconnecting
  | write c => exact (TcpConnection.handleWrite_state _ fits).symm.trans disconnecting
  | remove c | other job | error c | read c input events received | closeCallback c
  | removeChannel c => exact disconnecting

/-- Only a connection that is up can be `Disconnecting`. -/
theorem up_of_disconnecting {w : World} (reachable : server.Reachable w) (c : ConnId)
    (disconnecting : (w.conns c).conn.state = .disconnecting) : w.Up c := by
  refine reachable.invariant
    (I := fun w => (w.conns c).conn.state = .disconnecting → w.Up c) ?_ ?_ disconnecting
  · rintro w ⟨name, ipPort, callbacks, ioLoops, users, rfl⟩ started
    cases started
  · intro w a before up guard
    have later := (placed before).next_extends guard
    have change := World.next_change guard c
    change ((w.next a).conns c).conn.state = _ → (w.next a).Up c
    generalize (w.next a).conns c = tracked at change ⊢
    intro disconnecting
    cases change with
    | same => exact (up disconnecting).mono later
    | constructed new => cases disconnecting
    | performed l kernel job running current about here fits after events conn log deed =>
        subst about
        exact (up (deed.disconnecting fits disconnecting)).mono later
    | exchanged call => exact (World.Exchanges.up (placed before) guard call).mono later
    | marked mark => exact (up disconnecting).mono later
    | retrieved len => exact (up disconnecting).mono later

/-- The promise holds throughout. -/
theorem shutdownPromised {w : World} (reachable : server.Reachable w) (c : ConnId) :
    w.ShutdownPromised c := by
  refine reachable.invariant (I := fun w => w.ShutdownPromised c) ?_ ?_
  · rintro w ⟨name, ipPort, callbacks, ioLoops, users, rfl⟩ _ _ disconnecting
    cases disconnecting
  · intro w a before promised guard
    have guard : w.Enabled a := guard
    rcases Nat.lt_or_ge c w.created with known | unknown
    · by_cases running : ∃ l kernel, a = .run l kernel
      · obtain ⟨l, kernel, rfl⟩ := running
        exact promised.run (placed before) guard known
      · exact promised.idle (placed before) guard
          (fun l kernel same => running ⟨l, kernel, same⟩) known (standing before c)
    · intro _ _ disconnecting
      have event := (up_of_disconnecting (before.step guard) c disconnecting).2
      have blank := (placed before).next_history_unknown guard unknown
      rw [show server.next w a = w.next a from rfl, blank] at event
      exact absurd event List.not_mem_nil

/-- On a connection on which neither `handleClose` nor `connectDestroyed` has run, a `shutdown` that
has come to rest with write interest off has shut the write side down. -/
theorem shutdown_never_lost {w : World} (reachable : server.Reachable w) {c : ConnId}
    (unclosed : ¬ w.Closed c) (undestroyed : ¬ w.Destroyed c)
    (disconnecting : (w.conns c).conn.state = .disconnecting)
    (quiet : (w.conns c).conn.channel.isWriting = false) (settled : ¬ w.ShutdownWaiting c) :
    0 < (w.conns c).conn.socket.shutdownWrites := by
  rcases shutdownPromised reachable c unclosed undestroyed disconnecting with waiting | writing | shut
  · exact absurd waiting settled
  · rw [quiet] at writing
    cases writing
  · exact shut

/-- The hypotheses are met once loop 1 has run the send and the shutdown of a user thread. -/
theorem shutdown_never_lost_demo :
    0 < ((server.exec (demoServer 1 1) (demoOpening ++ demoShutdown ++
      [.run 1 demoKernel])).conns 0).conn.socket.shutdownWrites := by
  have admitted : server.Admits (demoServer 1 1)
      (demoOpening ++ demoShutdown ++ [.run 1 demoKernel]) := by decide +kernel
  have reachable := admitted.reachable (demoServer_initial 1 1)
  exact shutdown_never_lost reachable (by decide +kernel) (by decide +kernel) (by decide +kernel)
    (by decide +kernel) fun waiting =>
      absurd ((inRange reachable).waits (placed reachable) waiting) (by decide +kernel)

end EduMuduo

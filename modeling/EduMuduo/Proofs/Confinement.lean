/-
Module: EduMuduo.Proofs.Confinement
Layer: Proofs
Purpose: What the library shares between threads.  Of the members of a loop, of a connection and of
  the server those that are neither atomic nor guarded by a mutex are written by one thread only:
  the loop's, the thread of the connection's loop, and the thread of the base loop.  Other threads
  push functors, store `quit_` and exchange `state_`, and nothing else.
Imports: EduMuduo.Proofs.LoopMeasure
Trusted boundary: none
Main exports: Loop.LeftAlone, World.UserStays, loop_left_alone, connection_left_alone,
  written_by_own_thread
-/
import EduMuduo.Proofs.LoopMeasure

namespace EduMuduo

open Library

/-- What the step of another thread may do to a loop: append to `pendingFunctors_` and store
`quit_`. -/
structure Loop.LeftAlone (loop after : Loop) : Prop where
  phase : after.phase = loop.phase
  activeChannels : after.activeChannels = loop.activeChannels
  stack : after.stack = loop.stack
  ran : after.functors.ran = loop.functors.ran
  batch : after.functors.batch = loop.functors.batch
  pending : loop.functors.pending <+: after.functors.pending
  quit : loop.quit = true → after.quit = true
  destroyed : after.destroyed = loop.destroyed

namespace World

/-- The thread of the user that takes an action. -/
def user? : Action → Option ThreadId
  | .copy t _ _ | .drop t _ | .send t _ _ | .shutdown t _ | .queueUser t _ | .queueInLoop t =>
      some t
  | _ => none

/-- User code sets the high-water mark of a connection and takes bytes out of its input buffer only
on the connection's own loop. -/
def UserStays (w : World) : Action → Prop
  | .userSetHighWaterMarkCallback l c _ | .userRetrieve l c _ => (w.conns c).conn.loop = l
  | _ => True

instance (w : World) : ∀ action, Decidable (w.UserStays action)
  | .userSetHighWaterMarkCallback _ _ _ | .userRetrieve _ _ _ => inferInstanceAs (Decidable (_ = _))
  | .enterLoop _ | .poll _ _ | .handleEvent _ _ | .doPendingFunctors _ | .endBatch _
  | .destroyLoop _ | .run _ _ | .submit _ | .userSend _ _ _ | .userShutdown _ _ | .userTake _ _ _
  | .userGive _ _ _ | .userReturn _ | .copy _ _ _ | .drop _ _ | .send _ _ _ | .shutdown _ _
  | .queueUser _ _ | .queueInLoop _ | .quit _ | .destroyServer | .destroyConnection _
  | .destroyMember =>
      inferInstanceAs (Decidable True)

section Step

variable {w : World} {a : Action}

/-! ### Loops -/

theorem queue_left_alone (placed : w.Placed) (guard : w.Enabled a) {l : LoopId}
    (other : actor? a ≠ some l) :
    ∃ queued, ((w.next a).loops l).functors = (w.loops l).functors.pushAll queued := by
  have change := next_queue placed guard l
  generalize ((w.next a).loops l).functors = queue at change ⊢
  cases change with
  | intro base queued source appends =>
      cases source with
      | same idle => exact ⟨queued, rfl⟩
      | swapped running => exact absurd (congrArg actor? running) other
      | released running => exact absurd (congrArg actor? running) other
      | advanced kernel task rest running => exact absurd (congrArg actor? running) other

theorem loop_left_alone (placed : w.Placed) (guard : w.Enabled a) {l : LoopId}
    (other : actor? a ≠ some l) : (w.loops l).LeftAlone ((w.next a).loops l) := by
  have turns : turns? a ≠ some l := by
    intro turns
    cases a with
    | enterLoop l' | poll l' active | handleEvent l' named | doPendingFunctors l' | endBatch l'
    | destroyLoop l' =>
        exact other turns
    | _ => cases turns
  obtain ⟨queued, queue⟩ := queue_left_alone placed guard other
  exact
    { phase := part_next Loop.steady_phase guard turns
      activeChannels := part_next Loop.steady_active guard turns
      stack := stack_next_of_other guard other
      ran := by rw [queue]; rfl
      batch := by rw [queue]; rfl
      pending := by rw [queue]; exact List.prefix_append _ _
      quit := fun set => quit_next set fun enters => other (congrArg actor? enters)
      destroyed := part_next Loop.steady_destroyed guard turns }

/-! ### Connections -/

/-- A job on a connection runs on the connection's loop, unless it is the removal from the map,
which changes nothing of the connection. -/
theorem run_left_alone (placed : w.Placed) {l : LoopId} {kernel : Kernel} {job : Job}
    (current : w.current l = some job) (here : w.RunsHere l job)
    (other : (w.conns job.conn).conn.loop ≠ l) :
    (w.perform l kernel job).conn = (w.conns job.conn).conn := by
  cases job with
  | task task =>
      cases task with
      | removeConnectionInLoop c =>
          simp only [perform, runTask, removeConnectionInLoop]
          split <;> rfl
      | _ => exact absurd here other
  | callback callback c =>
      exact absurd (placed.current_ok current).2 other
  | releaseGuard c => exact absurd (placed.current_ok current).2 other
  | closeCallback c => exact absurd (placed.current_ok current).2.1 other
  | removeChannel c => exact absurd (placed.current_ok current).2.1 other

theorem exchanged_or_same {conns : ConnId → Tracked} {c c' : ConnId}
    (set : conns = (w.setConn c' (w.conns c').conn.exchangeDisconnecting.1 []).conns) :
    (conns c).conn = (w.conns c).conn ∨
      (conns c).conn = (w.conns c).conn.exchangeDisconnecting.1 := by
  rw [set, setConn_conns, Function.update_apply]
  split
  · rename_i same
    subst same
    exact .inr rfl
  · exact .inl rfl

/-- Of a connection another thread exchanges `state_` at most. -/
theorem connection_left_alone (placed : w.Placed) (guard : w.Enabled a) (stays : w.UserStays a)
    {c : ConnId} (known : c < w.created) (other : actor? a ≠ some (w.conns c).conn.loop) :
    ((w.next a).conns c).conn = (w.conns c).conn ∨
      ((w.next a).conns c).conn = (w.conns c).conn.exchangeDisconnecting.1 := by
  cases a with
  | userSetHighWaterMarkCallback l c' mark | userRetrieve l c' len =>
      left
      have apart : c ≠ c' := by
        rintro rfl
        exact other (congrArg some (Eq.symm stays))
      rw [World.next, setConn_conns, Function.update_of_ne apart]
  | run l kernel =>
      left
      obtain ⟨job, loop, fetched, current, here, _⟩ := enabled_run guard
      rw [run_conns fetched, Function.update_apply]
      split
      · rename_i about
        subst about
        exact run_left_alone placed current here fun same => other (congrArg some same.symm)
      · rfl
  | userShutdown l c' | shutdown t c' =>
      apply exchanged_or_same
      simp only [World.next]
      split <;> rfl
  | handleEvent l named =>
      left
      rw [World.next]
      split
      · rfl
      · rename_i first rest _
        cases first with
        | channel c' revents => rfl
        | acceptor =>
            rw [handleEvent]
            split
            · rfl
            · rw [newConnection_other _ _ _ (by exact Nat.ne_of_lt known)]
              rfl
  | destroyConnection c' =>
      simp only [World.next, runInLoop_conns]
      exact .inl rfl
  | userSend l c' data | send t c' data | submit l | queueInLoop t =>
      rw [World.next]
      split <;> exact .inl rfl
  | destroyMember =>
      rw [World.next, destroyMember]
      split <;> exact .inl rfl
  | enterLoop l | poll l active | doPendingFunctors l | endBatch l | destroyLoop l | userTake l t c'
  | userGive l t c' | userReturn l | copy t other c' | drop t c' | queueUser t c' | quit l
  | destroyServer =>
      exact .inl rfl

/-! ### Threads of the user -/

theorem calling_left_alone (guard : w.Enabled a) {t : ThreadId} (other : user? a ≠ some t) :
    ((w.next a).threads t).calling = (w.threads t).calling := by
  have change := next_thread guard t
  generalize (w.next a).threads t = thread at change ⊢
  cases change with
  | same | gained | dropped => rfl
  | called task free called =>
      cases called with
      | sendInLoop c data running | shutdownInLoop c running | user c running =>
          exact absurd (congrArg user? running) other
  | queued task running calling => exact absurd (congrArg user? running) other

end Step

end World

/-- In every run each step writes to what belongs to the thread that takes it, and beyond that to
atomic and guarded members only.  A loop belongs to its thread: another one appends to
`pendingFunctors_` or stores `quit_`.  A connection belongs to the thread of its loop: another one
exchanges `state_` for `kDisconnecting` in `shutdown()`.  The server and its pool belong to the
thread of the base loop, and what a thread of the user calls belongs to that thread. -/
theorem written_by_own_thread {w : World} (reachable : server.Reachable w) {a : Action}
    (guard : server.enabled w a) (stays : w.UserStays a) :
    (∀ l, World.actor? a ≠ some l → (w.loops l).LeftAlone ((w.next a).loops l)) ∧
      (∀ c < w.created, World.actor? a ≠ some (w.conns c).conn.loop →
        ((w.next a).conns c).conn = (w.conns c).conn ∨
          ((w.next a).conns c).conn = (w.conns c).conn.exchangeDisconnecting.1) ∧
      (World.actor? a ≠ some 0 →
        (w.next a).server = w.server ∧ (w.next a).created = w.created) ∧
      ∀ t, World.user? a ≠ some t →
        ((w.next a).threads t).calling = (w.threads t).calling := by
  have sound := sound reachable
  exact ⟨fun l other => World.loop_left_alone sound.placed guard other,
    fun c known other => World.connection_left_alone sound.placed guard stays known other,
    fun other => World.server_next_of_other sound guard other,
    fun t other => World.calling_left_alone guard other⟩

/-- A thread of the user shuts connection 0 of loop 1 down. -/
theorem written_by_own_thread_demo :
    (∀ l, World.actor? (.shutdown 0 0) ≠ some l →
        ((server.exec (demoServer 1 1) demoOpening).loops l).LeftAlone
          (((server.exec (demoServer 1 1) demoOpening).next (.shutdown 0 0)).loops l)) ∧
      (∀ c < (server.exec (demoServer 1 1) demoOpening).created,
        World.actor? (.shutdown 0 0) ≠
            some ((server.exec (demoServer 1 1) demoOpening).conns c).conn.loop →
          (((server.exec (demoServer 1 1) demoOpening).next (.shutdown 0 0)).conns c).conn =
              ((server.exec (demoServer 1 1) demoOpening).conns c).conn ∨
            (((server.exec (demoServer 1 1) demoOpening).next (.shutdown 0 0)).conns c).conn =
              ((server.exec (demoServer 1 1) demoOpening).conns c).conn.exchangeDisconnecting.1) ∧
      (World.actor? (.shutdown 0 0) ≠ some 0 →
        ((server.exec (demoServer 1 1) demoOpening).next (.shutdown 0 0)).server =
            (server.exec (demoServer 1 1) demoOpening).server ∧
          ((server.exec (demoServer 1 1) demoOpening).next (.shutdown 0 0)).created =
            (server.exec (demoServer 1 1) demoOpening).created) ∧
      ∀ t, World.user? (.shutdown 0 0) ≠ some t →
        (((server.exec (demoServer 1 1) demoOpening).next (.shutdown 0 0)).threads t).calling =
          ((server.exec (demoServer 1 1) demoOpening).threads t).calling := by
  have admitted : server.Admits (demoServer 1 1) demoOpening := by decide +kernel
  exact written_by_own_thread (admitted.reachable (demoServer_initial 1 1)) (by decide +kernel)
    trivial

end EduMuduo

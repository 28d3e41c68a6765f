/-
Module: EduMuduo.Proofs.ServerReferences
Layer: Proofs
Purpose: What still refers to a server that is destroyed.  The close callback of every connection,
  the queued `removeConnectionInLoop` and the callback of the acceptor capture the server's `this`.
  `~TcpServer` waits for none of them; where it ends with nothing of the kind left on the loops, and
  no connection is closed afterwards, nothing uses the server any more.
Imports: EduMuduo.Proofs.Batches, EduMuduo.Proofs.Range, EduMuduo.Proofs.Delivery
Trusted boundary: none
Main exports: Job.capturesServer, Loop.Clear, World.TouchesServer, World.LeavesServer,
  destroyed_server_untouched
-/
import EduMuduo.Proofs.Batches
import EduMuduo.Proofs.Range
import EduMuduo.Proofs.Delivery

namespace EduMuduo

open Library

/-! ### What captures the server -/

/-- The job goes through a `this` of the server. -/
def Job.capturesServer : Job → Bool
  | .closeCallback _ | .task (.removeConnectionInLoop _) => true
  | _ => false

/-- Nothing on the loop captures the server: no frame, no functor and no event to be handled. -/
structure Loop.Clear (loop : Loop) : Prop where
  stack : ∀ frame ∈ loop.stack, ∀ job ∈ frame.job?, job.capturesServer = false
  waiting : ∀ task ∈ loop.functors.waiting, (Job.task task).capturesServer = false
  active : .acceptor ∉ loop.activeChannels

instance (loop : Loop) : Decidable loop.Clear :=
  decidable_of_iff
    ((∀ frame ∈ loop.stack, ∀ job ∈ frame.job?, job.capturesServer = false) ∧
      (∀ task ∈ loop.functors.waiting, (Job.task task).capturesServer = false) ∧
        .acceptor ∉ loop.activeChannels)
    ⟨fun clear => ⟨clear.1, clear.2.1, clear.2.2⟩,
      fun clear => ⟨clear.stack, clear.waiting, clear.active⟩⟩

namespace World

def Clear (w : World) : Prop := ∀ l, l ≤ w.server.ioLoops → (w.loops l).Clear

instance (w : World) : Decidable w.Clear :=
  inferInstanceAs (Decidable (∀ l, l ≤ w.server.ioLoops → (w.loops l).Clear))

/-- The job that a clear loop runs next does not capture the server. -/
theorem Clear.current {w : World} {l : LoopId} (clear : (w.loops l).Clear) {job : Job}
    (current : w.current l = some job) : job.capturesServer = false := by
  obtain ⟨loop, fetched⟩ := exists_fetch current
  cases Loop.fetched fetched with
  | called _ rest top =>
      exact clear.stack (.job job) (by rw [top]; exact List.mem_cons_self) job rfl
  | functor task rest bottom draining next =>
      exact clear.waiting task (by rw [BatchQueue.waiting, next]; exact List.mem_cons_self)

/-- A frame that captures the server is left by `handleClose`, or by a job that did. -/
theorem perform_captures {w : World} {l : LoopId} {kernel : Kernel} {job : Job}
    (plain : job.capturesServer = false) (ongoing : kernel.closes job = false) :
    ∀ frame ∈ (w.perform l kernel job).frames, ∀ left ∈ frame.job?,
      left.capturesServer = false := by
  intro frame member left found
  have leaves := w.perform_leaves l kernel job frame member
  cases leaves with
  | user => cases found
  | removeChannel => cases found; rfl
  | closeCallback =>
      have owed : 0 < (w.perform l kernel job).frames.count (.job (.closeCallback job.conn)) :=
        List.count_pos_iff.mpr member
      rw [perform_owes, if_pos rfl] at owed
      have closes := (w.perform_deed l kernel job).closes (List.count_pos_iff.mp owed)
      rw [ongoing] at closes
      cases closes
  | removeConnectionInLoop =>
      have called : .removeConnectionInLoop job.conn ∈
          (w.perform l kernel job).frames.filterMap Frame.task? :=
        List.mem_filterMap.mpr ⟨_, member, rfl⟩
      have calls := w.perform_calls l kernel job
      generalize (w.perform l kernel job).frames.filterMap Frame.task? = pushed at calls called
      generalize (w.perform l kernel job).queued = queued at calls
      cases calls with
      | removalInline c base => cases plain
      | notifications kinds source => exact absurd called List.not_mem_nil
      | destruction c stored => exact absurd called List.not_mem_nil
      | removalQueued c other => exact absurd called List.not_mem_nil

/-! ### Clear loops stay clear -/

/-- A step that closes no connection and polls no acceptor leaves the loops clear. -/
theorem Clear.next {w : World} (clear : w.Clear) (placed : w.Placed) {a : Action}
    (guard : w.Enabled a)
    (ongoing : ∀ l kernel job, a = .run l kernel → w.current l = some job →
      kernel.closes job = false)
    (unpolled : ∀ l active, a = .poll l active → .acceptor ∉ active) : (w.next a).Clear := by
  intro l inside
  rw [next_ioLoops] at inside
  have here := clear l inside
  refine ⟨fun frame member job found => ?_, fun task member => ?_, fun member => ?_⟩
  · rcases mem_stack_next guard member with old | new
    · exact here.stack frame old job found
    cases new with
    | dispatched named running c _ dispatches => cases dispatches <;> cases found <;> rfl
    | left kernel ran running current _ left =>
        exact perform_captures (Clear.current here current)
          (ongoing l kernel ran running current) frame left job found
    | called task idle pushed =>
        cases found
        cases pushed with
        | removeConnectionInLoop kernel c running current => exact absurd running (idle kernel)
        | _ => rfl
    | took t c running held => cases found
    | destroying running => cases found
    | member running _ plain =>
        rw [plain] at found
        cases found
  · rcases mem_waiting_next placed guard member with old | appended
    · exact here.waiting task old
    · cases appended with
      | connectEstablished l' accepting => rfl
      | byJob l' kernel job running current _ queued target =>
          rcases (w.perform_calls l' kernel job).of_queued queued with
            ⟨kind, rfl, _⟩ | ⟨c, rfl, _⟩ | ⟨c, rfl, same, _⟩
          · cases kind <;> rfl
          · rfl
          · subst running same
            have captures := Clear.current (clear l' guard.1) current
            cases captures
      | submitted l' _ running top target =>
          subst running
          have onStack := List.mem_of_mem_head? (submitted_eq top).1
          exact (clear l' guard.1).stack _ onStack _ rfl
      | byThread t _ running calling target =>
          have plain := ((placed.threads t).calling _ calling).1
          cases task with
          | removeConnectionInLoop c => cases plain
          | _ => rfl
      | connectDestroyed c running same => rfl
  · rcases mem_active_next guard member with old | ⟨active, polled, member⟩
    · exact here.active old
    · exact unpolled l active polled member

/-! ### The end of the server -/

theorem newConnection_destroyed (w : World) (l : LoopId) (named : Bool) :
    (w.newConnection l named).server.destroyed = w.server.destroyed := by
  obtain ⟨next, same⟩ := getNextLoop_snd w.server
  cases named with
  | false => simp only [newConnection, countAccepted, same]; rfl
  | true =>
      simp only [newConnection, if_true, runInLoop]
      split <;> simp only [setLoop, queueInLoop, addConnection, countAccepted, same]

/-- `~TcpServer` ends with its last member. -/
theorem serverDestroyed_next {w : World} {a : Action}
    (destroyed : (w.next a).server.destroyed = true) :
    w.server.destroyed = true ∨
      a = .destroyMember ∧ (w.loops 0).stack.head? = some .destroyAcceptor := by
  cases a with
  | handleEvent l named =>
      left
      rw [next] at destroyed
      split at destroyed
      · exact destroyed
      · rename_i first rest split
        cases first with
        | channel c revents => exact destroyed
        | acceptor =>
            rw [handleEvent] at destroyed
            split at destroyed
            · exact destroyed
            · rwa [newConnection_destroyed] at destroyed
  | run l kernel | submit l | userSend l c data | queueInLoop t | send t c data =>
      left
      rw [next] at destroyed
      split at destroyed <;> exact destroyed
  | userShutdown l c | shutdown t c =>
      left
      simp only [next] at destroyed
      split at destroyed <;> exact destroyed
  | destroyConnection c =>
      left
      simp only [next, runInLoop] at destroyed
      split at destroyed <;> exact destroyed
  | destroyMember =>
      rw [next, destroyMember] at destroyed
      split at destroyed
      · exact .inl destroyed
      · exact .inl destroyed
      · exact .inl destroyed
      · rename_i top
        exact .inr ⟨rfl, by rw [top]; rfl⟩
      · exact .inl destroyed
  | enterLoop l | poll l active | doPendingFunctors l | endBatch l | destroyLoop l
  | userSetHighWaterMarkCallback l c mark | userRetrieve l c len | userTake l t c | userGive l t c
  | userReturn l | copy t other c | drop t c | queueUser t c | quit l | destroyServer =>
      exact .inl destroyed

/-- Action `a` executes something that captured the server's `this`. -/
def TouchesServer (w : World) : Action → Prop
  | .run l _ => ∃ job ∈ w.current l, job.capturesServer = true
  | .handleEvent l _ => (w.loops l).activeChannels.head? = some .acceptor
  | _ => False

/-- `~TcpServer` ends with clear loops, and behind it no connection is closed. -/
def LeavesServer (w : World) : Action → Prop
  | .destroyMember => (w.loops 0).stack.head? = some .destroyAcceptor → w.Clear
  | .run l kernel =>
      w.server.destroyed = true → ∀ job ∈ w.current l, kernel.closes job = false
  | _ => True

instance (w : World) : ∀ action, Decidable (w.LeavesServer action)
  | .destroyMember => inferInstanceAs (Decidable (_ = _ → w.Clear))
  | .run l kernel => inferInstanceAs (Decidable
      (w.server.destroyed = true → ∀ job ∈ w.current l, kernel.closes job = false))
  | .enterLoop _ | .poll _ _ | .handleEvent _ _ | .doPendingFunctors _ | .endBatch _
  | .destroyLoop _ | .submit _ | .userSend _ _ _ | .userShutdown _ _
  | .userSetHighWaterMarkCallback _ _ _ | .userRetrieve _ _ _ | .userTake _ _ _ | .userGive _ _ _
  | .userReturn _ | .copy _ _ _ | .drop _ _ | .send _ _ _ | .shutdown _ _ | .queueUser _ _
  | .queueInLoop _ | .quit _ | .destroyServer | .destroyConnection _ =>
      inferInstanceAs (Decidable True)

end World

/-- The loops are clear from the end of the server on. -/
theorem clear_of_destroyed {w : World}
    (reachable : (server.restrict World.LeavesServer).Reachable w)
    (destroyed : w.server.destroyed = true) : w.Clear := by
  refine reachable.invariant (I := fun w => w.server.destroyed = true → w.Clear) ?_ ?_ destroyed
  · rintro w ⟨name, ipPort, callbacks, ioLoops, users, rfl⟩ destroyed
    cases destroyed
  · intro w a before clear guard destroyed
    have placed := placed before.of_restrict
    have enabled : w.Enabled a := guard.1
    rcases World.serverDestroyed_next destroyed with already | ⟨rfl, last⟩
    · refine (clear already).next placed enabled ?_ ?_
      · rintro l kernel job rfl current
        exact guard.2 already job current
      · rintro l active rfl polled
        have running := (enabled.2.2.1 _ polled).2
        rw [already] at running
        cases running
    · exact World.Clear.next (guard.2 last) placed enabled
        (fun _ _ _ running => by cases running) fun _ _ running => by cases running

/-- In every run in which `~TcpServer` ends with nothing on the loops that captures the server, and
in which no connection is closed afterwards, no step uses the destroyed server. -/
theorem destroyed_server_untouched {w : World}
    (reachable : (server.restrict World.LeavesServer).Reachable w)
    (destroyed : w.server.destroyed = true) {a : Action} (guard : server.enabled w a) :
    ¬ w.TouchesServer a := by
  have clear := clear_of_destroyed reachable destroyed
  have guard : w.Enabled a := guard
  cases a with
  | run l kernel =>
      rintro ⟨job, current, captures⟩
      rw [World.Clear.current (clear l guard.1) current] at captures
      cases captures
  | handleEvent l named => exact fun top => (clear l guard.1).active (List.mem_of_mem_head? top)
  | _ => exact id

/-- A connection of the base loop is open when its server is destroyed there; a functor of the user
is queued behind. -/
def demoDestruction : List Action :=
  demoBaseEntering ++
    [.poll 0 [.acceptor], .handleEvent 0 true, .run 0 demoKernel, .userGive 0 0 0, .userReturn 0,
      .queueUser 0 0, .queueInLoop 0, .destroyServer, .destroyConnection 0, .run 0 demoKernel,
      .userReturn 0, .run 0 demoKernel, .destroyMember, .destroyMember, .doPendingFunctors 0]

/-- The hypotheses are met where that functor runs. -/
theorem destroyed_server_untouched_demo :
    ¬ (server.exec (demoServer 0 1) demoDestruction).TouchesServer (.run 0 demoKernel) := by
  have admitted : (server.restrict World.LeavesServer).Admits (demoServer 0 1)
      demoDestruction := by decide +kernel
  have reachable := admitted.reachable (demoServer_initial 0 1)
  rw [Machine.restrict_exec] at reachable
  exact destroyed_server_untouched reachable (by decide +kernel) (by decide +kernel)

/-- An io loop has queued the removal of a closed connection when the base loop runs `~TcpServer`,
which joins the io thread and ends.  The base loop goes on and runs the removal. -/
theorem removal_uses_destroyed_server :
    ¬ ∀ (w : World) (a : Action), server.Reachable w → w.server.destroyed = true →
      server.enabled w a → ¬ w.TouchesServer a := by
  intro claim
  have admitted : server.Admits (demoServer 1 1)
      (demoOpening ++ demoClosing ++ [.userReturn 1, .run 1 demoKernel, .run 1 demoKernel,
        .doPendingFunctors 1, .endBatch 1, .destroyServer, .destroyConnection 0, .destroyMember,
        .destroyMember, .poll 1 [], .doPendingFunctors 1, .run 1 demoKernel, .run 1 demoKernel,
        .endBatch 1, .destroyLoop 1, .destroyMember, .destroyMember, .doPendingFunctors 0]) := by
    decide +kernel
  refine claim _ (.run 0 demoKernel) (admitted.reachable (demoServer_initial 1 1))
    (by decide +kernel) (by decide +kernel) ?_
  exact ⟨.task (.removeConnectionInLoop 0), by decide +kernel, rfl⟩

end EduMuduo

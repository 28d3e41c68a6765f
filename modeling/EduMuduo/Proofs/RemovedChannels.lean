/-
Module: EduMuduo.Proofs.RemovedChannels
Layer: Proofs
Purpose: Whether `loop()` handles an event of a channel that has been removed since the poll.  A
  closed connection is destroyed from the queue, behind all events of the batch.  `~TcpServer` does
  not wait for them: it calls `connectDestroyed` of the connections of its own loop at once, and the
  acceptor goes with it.  Everything is well when the rest of the batch holds none of these.
Imports: EduMuduo.Proofs.Batches, EduMuduo.Proofs.Lifecycle
Trusted boundary: none (fully proved)
Main exports: World.RemovesChannel, World.DestroyedApart, World.Removal, World.Apart,
  DispatchesNoRemoved, removed_channel_not_dispatched
-/
import EduMuduo.Proofs.Batches
import EduMuduo.Proofs.Lifecycle

namespace EduMuduo

open Library

namespace World

/-! ### Removals and batches -/

/-- Action `a` removes the channel of event `x` from the poller: the last part of
`connectDestroyed`, or the acceptor's destructor. -/
inductive RemovesChannel (w : World) : Action → Active → Prop where
  | connection (l : LoopId) (kernel : Kernel) (c : ConnId) (revents : EpollEvents)
      (current : w.current l = some (.removeChannel c)) :
      RemovesChannel w (.run l kernel) (.channel c revents)
  | acceptor (top : (w.loops 0).stack.head? = some .destroyAcceptor) :
      RemovesChannel w .destroyMember .acceptor

/-- `~TcpServer` removes the channel of this event of its own loop. -/
def goesWithServer (w : World) : Active → Bool
  | .acceptor => true
  | .channel c _ => w.stored c

/-- Where `~TcpServer` begins, no event left in the batch of its loop goes with the server. -/
def DestroyedApart (w : World) : Action → Prop
  | .destroyServer => ∀ x ∈ (w.loops 0).activeChannels, w.goesWithServer x = false
  | _ => True

instance (w : World) : ∀ action, Decidable (w.DestroyedApart action)
  | .destroyServer => inferInstanceAs (Decidable (∀ x ∈ _, w.goesWithServer x = false))
  | .enterLoop _ | .poll _ _ | .handleEvent _ _ | .doPendingFunctors _ | .endBatch _
  | .destroyLoop _ | .run _ _ | .submit _ | .userSend _ _ _ | .userShutdown _ _
  | .userSetHighWaterMarkCallback _ _ _ | .userRetrieve _ _ _ | .userTake _ _ _ | .userGive _ _ _
  | .userReturn _ | .copy _ _ _ | .drop _ _ | .send _ _ _ | .shutdown _ _ | .queueUser _ _
  | .queueInLoop _ | .quit _ | .destroyConnection _ | .destroyMember =>
      inferInstanceAs (Decidable True)

/-! ### Removals that lie ahead -/

/-- The frame is going to remove the channel of the event. -/
inductive Removal (w : World) : Frame → Active → Prop where
  | connectDestroyed (c : ConnId) (revents : EpollEvents) :
      Removal w (.job (.task (.connectDestroyed c))) (.channel c revents)
  | removeChannel (c : ConnId) (revents : EpollEvents) :
      Removal w (.job (.removeChannel c)) (.channel c revents)
  | stored (c : ConnId) (revents : EpollEvents) (stored : w.stored c = true) :
      Removal w .destroyServer (.channel c revents)
  | acceptor (frame : Frame) (destructor : frame.isDestructor = true) : Removal w frame .acceptor

/-- No frame is going to remove a channel with an event left in the batch. -/
def Apart (w : World) : Prop :=
  ∀ l, ∀ frame ∈ (w.loops l).stack, ∀ x ∈ (w.loops l).activeChannels, ¬ w.Removal frame x

theorem stored_iff {w : World} {c : ConnId} :
    w.stored c = true ↔ ∃ name, (name, c) ∈ w.server.connections := by
  rw [stored, List.any_eq_true]
  constructor
  · rintro ⟨⟨name, _⟩, member, same⟩
    exact ⟨name, beq_iff_eq.mp same ▸ member⟩
  · rintro ⟨name, member⟩
    exact ⟨_, member, beq_self_eq_true c⟩

/-- A known connection is not stored again. -/
theorem stored_of_next {w : World} {a : Action} (guard : w.Enabled a) {c : ConnId}
    (known : c < w.created) (stored : (w.next a).stored c = true) : w.stored c = true := by
  obtain ⟨name, entry⟩ := stored_iff.mp stored
  exact stored_iff.mpr ⟨name, ((mem_entry_next guard known name).mp entry).1⟩

/-- A removal that lies ahead of a frame lay ahead of it before the step. -/
theorem Removal.of_next {w : World} {a : Action} (guard : w.Enabled a) {frame : Frame}
    {x : Active} (known : ∀ c revents, x = .channel c revents → c < w.created)
    (removal : (w.next a).Removal frame x) : w.Removal frame x := by
  cases removal with
  | connectDestroyed c revents => exact .connectDestroyed c revents
  | removeChannel c revents => exact .removeChannel c revents
  | stored c revents stored =>
      exact .stored c revents (stored_of_next guard (known c revents rfl) stored)
  | acceptor _ destructor => exact .acceptor _ destructor

/-- Only `connectDestroyed` leaves the removal of the channel behind. -/
theorem perform_removes {w : World} {l : LoopId} {kernel : Kernel} {job : Job} {c : ConnId}
    (left : .job (.removeChannel c) ∈ (w.perform l kernel job).frames) :
    job = .task (.connectDestroyed c) := by
  have closing : ∀ {c' : ConnId} {conn : TcpConnection},
      .job (.removeChannel c) ∉ (w.handleClose c' conn).frames := by
    intro c' conn member
    rcases List.mem_append.mp member with announced | last
    · split at announced <;> simp at announced
    · simp at last
  cases job with
  | task task =>
      cases task with
      | connectDestroyed c' =>
          have leaves := w.perform_leaves l kernel (.task (.connectDestroyed c')) _ left
          cases leaves
          rfl
      | connectEstablished c' =>
          simp only [perform, runTask, connectEstablished] at left
          split at left <;> simp at left
      | removeConnectionInLoop c' =>
          simp only [perform, runTask, removeConnectionInLoop] at left
          split at left <;> simp [quiet] at left
      | writeCompleteCallback c' | highWaterMarkCallback c' total =>
          simp only [perform, runTask, notify] at left
          split at left <;> simp at left
      | sendInLoop c' data caller | shutdownInLoop c' => exact absurd left List.not_mem_nil
      | user c' => simp [perform, runTask] at left
  | callback callback c' =>
      cases callback with
      | close => exact absurd left closing
      | error | write => exact absurd left List.not_mem_nil
      | read =>
          simp only [perform, runCallback, handleRead] at left
          split at left
          · split at left <;> simp [quiet] at left
          · exact absurd left closing
          · exact absurd left List.not_mem_nil
  | closeCallback c' =>
      simp only [perform, closeCallback] at left
      split at left <;> simp [quiet] at left
  | releaseGuard c' | removeChannel c' => exact absurd left List.not_mem_nil

/-- The later steps of `~TcpServer` do not start its loop over `connections_` again. -/
theorem destroyServer_of_member {w : World} {l : LoopId}
    (member : .destroyServer ∈ ((w.next .destroyMember).loops l).stack) :
    .destroyServer ∈ (w.loops l).stack := by
  have popped : ∀ frames : List Frame, .destroyServer ∉ frames →
      .destroyServer ∈ ((w.setLoop 0 ((w.loops 0).pop.push frames)).loops l).stack →
        .destroyServer ∈ (w.loops l).stack := by
    intro frames others member
    rw [stack_setLoop] at member
    split at member
    · rename_i here
      rcases List.mem_append.mp member with new | below
      · exact absurd new others
      · exact here ▸ List.mem_of_mem_tail below
    · exact member
  rw [next, destroyMember] at member
  split at member
  · refine popped _ (fun new => ?_) member
    rcases mem_memberFrames new with ⟨l, same⟩ | ⟨l, same⟩ | same <;> cases same
  · rename_i l' rest top
    rw [stack_setLoop_same _ l l' (by rfl)] at member
    exact popped [] List.not_mem_nil member
  · exact popped [] List.not_mem_nil member
  · exact popped [] List.not_mem_nil member
  · exact member

/-- The job that is run next tops the stack while events are handled. -/
theorem mem_stack_of_current {w : World} {l : LoopId} {job : Job}
    (current : w.current l = some job) (handling : (w.loops l).phase = .handling) :
    .job job ∈ (w.loops l).stack := by
  obtain ⟨loop, fetched⟩ := exists_fetch current
  cases Loop.fetched fetched with
  | called _ rest top =>
      rw [top]
      exact List.mem_cons_self
  | functor task rest bottom draining next =>
      rw [handling] at draining
      cases draining

/-- The step lemma, for a frame that the step puts on the stack. -/
theorem NewFrame.apart {w : World} {a : Action} (guard : w.Enabled a) (placed : w.Placed)
    (condition : w.DestroyedApart a) (apart : w.Apart) {l : LoopId} {frame : Frame}
    (new : NewFrame w a l frame) (member : frame ∈ ((w.next a).loops l).stack) {x : Active}
    (active : x ∈ (w.loops l).activeChannels) (handling : (w.loops l).phase = .handling) :
    ¬ w.Removal frame x := by
  intro removal
  have base : frame.isDestructor = true → l = 0 := by
    intro destructor
    have ok := ((placed.next guard).loops l).stack frame member
    cases frame with
    | job job => cases destructor
    | user held => cases destructor
    | _ => exact ok
  cases new with
  | dispatched named running c _ dispatches =>
      cases removal with
      | connectDestroyed c revents => cases dispatches
      | removeChannel c revents => cases dispatches
      | stored c revents stored => cases dispatches
      | acceptor _ destructor =>
          rw [dispatches.isDestructor] at destructor
          cases destructor
  | left kernel job running current _ left =>
      have leaves := w.perform_leaves l kernel job frame left
      cases removal with
      | removeChannel c revents =>
          have destroys := perform_removes left
          subst destroys
          exact apart l _ (mem_stack_of_current current handling) _ active (.connectDestroyed c _)
      | connectDestroyed c revents => cases leaves
      | stored c revents stored => cases leaves
      | acceptor _ destructor =>
          rw [leaves.isDestructor] at destructor
          cases destructor
  | called task idle pushed =>
      cases removal with
      | connectDestroyed c revents =>
          cases pushed with
          | connectDestroyed _ running zero here =>
              subst running zero
              have stored := stored_iff.mpr ⟨_, guard.2⟩
              exact apart 0 _ (List.mem_of_mem_head? guard.1) _ active (.stored c _ stored)
      | acceptor _ destructor => cases destructor
  | took t c running held =>
      cases removal with
      | acceptor _ destructor => cases destructor
  | destroying running =>
      subst running
      have zero := base rfl
      subst zero
      have spared := condition x active
      cases removal with
      | stored c revents stored =>
          rw [goesWithServer, stored] at spared
          cases spared
      | acceptor _ destructor => cases spared
  | member running _ plain =>
      subst running
      cases removal with
      | connectDestroyed c revents => cases plain
      | removeChannel c revents => cases plain
      | stored c revents stored =>
          exact apart l _ (destroyServer_of_member member) _ active (.stored c _ stored)
      | acceptor _ destructor =>
          have zero := base destructor
          subst zero
          obtain ⟨below, onStack, is⟩ := memberReady_top guard
          exact apart 0 below onStack _ active (.acceptor below is)

/-- The step lemma. -/
theorem Apart.next {w : World} (apart : w.Apart) {a : Action} (guard : w.Enabled a)
    (placed : w.Placed) (inTurn : ∀ l, (w.loops l).InTurn) (condition : w.DestroyedApart a) :
    (w.next a).Apart := by
  intro l frame member x active removal
  rcases mem_active_next guard active with old | ⟨polled, rfl, _⟩
  · have known : ∀ c revents, x = .channel c revents → c < w.created := by
      rintro c revents rfl
      exact ((placed.loops l).active c revents old).1.1
    have removal := removal.of_next guard known
    rcases mem_stack_next guard member with standing | new
    · exact apart l frame standing x old removal
    · have handling : (w.loops l).phase = .handling := by
        by_contra elsewhere
        rw [(inTurn l).handled elsewhere] at old
        cases old
      exact new.apart guard placed condition apart member old handling removal
  · -- a loop that polls has an empty stack
    have polling : (w.loops l).phase = .polling := guard.2.1
    rw [next_stack_polling guard polling ((inTurn l).polling polling)] at member
    cases member

end World

/-- Nothing is to be removed ahead of its event as long as the server is destroyed apart. -/
theorem apart {w : World} (reachable : (server.restrict World.DestroyedApart).Reachable w) :
    w.Apart := by
  apply reachable.invariant (I := World.Apart)
  · rintro w ⟨name, ipPort, callbacks, ioLoops, users, rfl⟩ l frame member
    cases member
  · intro w a before apart guard
    have before := before.of_restrict
    exact apart.next guard.1 (placed before) (inTurn before) guard.2

/-- The acceptor is polled by the base loop. -/
theorem acceptor_base {w : World} (reachable : server.Reachable w) {l : LoopId}
    (active : .acceptor ∈ (w.loops l).activeChannels) : l = 0 := by
  revert active
  apply reachable.invariant (I := fun w => .acceptor ∈ (w.loops l).activeChannels → l = 0)
  · rintro w ⟨name, ipPort, callbacks, ioLoops, users, rfl⟩ active
    cases active
  · intro w a _ base guard active
    have guard : w.Enabled a := guard
    rcases World.mem_active_next guard active with old | ⟨polled, rfl, member⟩
    · exact base old
    · exact (guard.2.2.1 _ member).1

/-- A channel that is removed has no event left in any batch. -/
theorem removed_inactive {w : World}
    (reachable : (server.restrict World.DestroyedApart).Reachable w) {a : Action} {x : Active}
    (removes : w.RemovesChannel a x) (l : LoopId) : x ∉ (w.loops l).activeChannels := by
  intro active
  have apart := apart reachable
  have reachable := reachable.of_restrict
  have placed := placed reachable
  cases removes with
  | connection l' kernel c revents current =>
      have here := (placed.current_ok current).2.1
      rw [((placed.loops l).active c revents active).2] at here
      subst here
      obtain ⟨loop, fetched⟩ := World.exists_fetch current
      cases Loop.fetched fetched with
      | called _ rest top =>
          exact apart l (.job (.removeChannel c)) (by rw [top]; exact List.mem_cons_self) _ active
            (.removeChannel c revents)
  | acceptor top =>
      have base := acceptor_base reachable active
      subst base
      exact apart 0 _ (List.mem_of_mem_head? top) _ active (.acceptor _ rfl)

/-- What is not in the batch of a loop stays out of it until the loop polls again. -/
theorem inactive_exec {w : World} {l : LoopId} {x : Active}
    (inactive : x ∉ (w.loops l).activeChannels) {schedule : List Action}
    (admitted : server.Admits w schedule) (unpolled : ∀ active, .poll l active ∉ schedule) :
    x ∉ ((server.exec w schedule).loops l).activeChannels := by
  induction schedule generalizing w with
  | nil => exact inactive
  | cons a rest inductionHypothesis =>
      obtain ⟨guard, later⟩ := admitted
      have guard : w.Enabled a := guard
      apply inductionHypothesis _ later
      · exact fun active member => unpolled active (List.mem_cons_of_mem _ member)
      · intro member
        rcases World.mem_active_next guard member with old | ⟨active, rfl, _⟩
        · exact inactive old
        · exact unpolled active List.mem_cons_self

/-- Between a poll and the next one of the same loop, no event is handled whose channel has been
removed in between. -/
def DispatchesNoRemoved (start : World) (schedule : List Action) : Prop :=
  ∀ front l polled middle named rest,
    schedule = front ++ .poll l polled :: (middle ++ .handleEvent l named :: rest) →
      (∀ active, .poll l active ∉ middle) →
        ∀ x, ((server.exec start (front ++ .poll l polled :: middle)).loops
            l).activeChannels.head? = some x →
          ∀ before a after, middle = before ++ a :: after →
            ¬ (server.exec start (front ++ .poll l polled :: before)).RemovesChannel a x

/-- In every run in which `~TcpServer` begins only with a batch whose rest holds neither the acceptor
nor a stored connection, no event of a removed channel is handled. -/
theorem removed_channel_not_dispatched {start : World} (initial : server.initial start)
    (schedule : List Action)
    (admitted : (server.restrict World.DestroyedApart).Admits start schedule) :
    DispatchesNoRemoved start schedule := by
  rintro front l polled middle named rest rfl unpolled x head before a after rfl removes
  have split : front ++ .poll l polled :: (before ++ a :: after ++ .handleEvent l named :: rest) =
      (front ++ .poll l polled :: before) ++ ((a :: after) ++ .handleEvent l named :: rest) := by
    simp
  rw [split] at admitted
  obtain ⟨upTo, onwards⟩ := Machine.admits_append.mp admitted
  have reachable := upTo.reachable initial
  rw [Machine.restrict_exec] at reachable onwards
  have inactive := removed_inactive reachable removes l
  have between := (Machine.admits_append.mp onwards).1.of_restrict
  have still := inactive_exec inactive between
    fun active member => unpolled active (List.mem_append_right _ member)
  apply still
  have whole : front ++ .poll l polled :: (before ++ a :: after) =
      (front ++ .poll l polled :: before) ++ (a :: after) := by
    simp
  rw [whole, Machine.exec_append] at head
  exact List.mem_of_mem_head? head

/-- The base loop accepts a connection and establishes it. -/
def demoBaseOpening : List Action :=
  [.poll 0 [.acceptor], .handleEvent 0 true, .run 0 demoKernel, .userReturn 0,
    .doPendingFunctors 0, .endBatch 0]

/-- The base loop handles the hangup of a connection, up to the end of `handleEvent`. -/
def demoBaseClosing : List Action :=
  [.handleEvent 0 true, .run 0 demoKernel, .userReturn 0, .run 0 demoKernel, .run 0 demoKernel,
    .run 0 demoKernel]

/-- Both connections of the base loop hang up, and a channel of the user destroys the server.  The
two channels are removed behind the batch. -/
theorem removed_channel_not_dispatched_demo :
    DispatchesNoRemoved (demoServer 0 0)
      (demoBaseEntering ++ demoBaseOpening ++ demoBaseOpening ++
        .poll 0 [.channel 0 EPOLLHUP, .channel 1 EPOLLHUP] :: (demoBaseClosing ++
          demoBaseClosing ++ [.destroyServer, .destroyMember, .destroyMember,
            .doPendingFunctors 0, .run 0 demoKernel, .run 0 demoKernel, .run 0 demoKernel,
            .run 0 demoKernel, .endBatch 0, .poll 0 []])) :=
  removed_channel_not_dispatched (demoServer_initial 0 0) _ (by decide +kernel)

/-- Two connections of the base loop are readable, and the event of the first is handled. -/
def demoTwoReadable : List Action :=
  demoBaseEntering ++ demoBaseOpening ++ demoBaseOpening ++
    [.poll 0 [.channel 0 EPOLLIN, .channel 1 EPOLLIN], .handleEvent 0 true]

/-- The message callback destroys the server, up to the removal of the second channel. -/
def demoDestroyedEarly : List Action :=
  [.run 0 ⟨.data [7], .accepted 1⟩, .destroyServer, .destroyConnection 1, .run 0 demoKernel,
    .userReturn 0]

/-- From that removal to the end of the event. -/
def demoDestroyedRest : List Action :=
  [.run 0 demoKernel, .destroyConnection 0, .run 0 demoKernel, .userReturn 0, .run 0 demoKernel,
    .destroyMember, .destroyMember, .userReturn 0, .run 0 demoKernel]

/-- Whatever a buffer holds, it has room for the byte that is read. -/
theorem demoDestroyed_admitted :
    server.Admits (demoServer 0 0)
      (demoTwoReadable ++ (demoDestroyedEarly ++ demoDestroyedRest ++ [.handleEvent 0 true])) := by
  have opened : server.Admits (demoServer 0 0) demoTwoReadable := by decide +kernel
  have fits : ∀ buffer : SafeBuffer, (ReadResult.data [7]).Fits buffer.raw.readRoom :=
    fun buffer => Nat.le_trans (by decide) buffer.kExtraBufSize_le_readRoom
  apply Machine.admits_append.mpr
  constructor
  · exact opened
  · constructor
    · exact ⟨by decide, .callback .read 0, by decide +kernel, trivial, fits _⟩
    · decide +kernel

/-- The event of the second connection is handled although its channel has been removed. -/
theorem removed_channel_dispatched :
    server.Admits (demoServer 0 0)
        (demoTwoReadable ++ (demoDestroyedEarly ++ demoDestroyedRest ++ [.handleEvent 0 true])) ∧
      ¬ DispatchesNoRemoved (demoServer 0 0)
        (demoTwoReadable ++ (demoDestroyedEarly ++ demoDestroyedRest ++
          [.handleEvent 0 true])) := by
  constructor
  · exact demoDestroyed_admitted
  · intro never
    apply never (demoBaseEntering ++ demoBaseOpening ++ demoBaseOpening) 0 _
      (.handleEvent 0 true :: (demoDestroyedEarly ++ demoDestroyedRest)) true [] rfl
    · intro active member
      simp [demoDestroyedEarly, demoDestroyedRest] at member
    · show _ = some (.channel 1 EPOLLIN)
      decide +kernel
    · show _ = (.handleEvent 0 true :: demoDestroyedEarly) ++
        .run 0 demoKernel :: demoDestroyedRest.tail
      rfl
    · exact .connection 0 demoKernel 1 EPOLLIN (by decide +kernel)

end EduMuduo

/-
Module: EduMuduo.Proofs.CallOrder
Layer: Proofs
Purpose: In which order the functors of one thread's `send` and `shutdown` reach the connection's
  loop.  A thread that has one of them in flight does nothing else; a functor of `shutdown` exists
  only when the state has left `Connected`, and then no `send` is accepted any more.  So no send of
  the thread that shuts down is ever behind its `shutdown`.
Imports: EduMuduo.Proofs.QueueFlow
Trusted boundary: none
Main exports: Frame.isCall, callsOnTop, sendersOk, unconnected_of_shutdownWaiting, OnlyShutdownBy,
  World.SendsFirst, sendsFirst_next
-/
import EduMuduo.Proofs.QueueFlow

namespace EduMuduo

open Library

/-! ### Where the functors of `send` and `shutdown` are -/

/-- A call of `sendInLoop` or `shutdownInLoop`. -/
def Frame.isCall : Frame → Bool
  | .job (.task (.sendInLoop _ _ _)) | .job (.task (.shutdownInLoop _)) => true
  | _ => false

theorem Frame.isCall_of_idle (frame : Frame) (idle : frame.job? = none) :
    frame.isCall = false := by
  cases frame with
  | job code => cases idle
  | user held | destroyServer | quitThread l | joinThread l | destroyAcceptor => rfl

namespace World

theorem Leaves.isCall {c : ConnId} {frame : Frame} (leaves : Leaves c frame) :
    frame.isCall = false := by
  cases leaves <;> rfl

theorem Dispatches.isCall {c : ConnId} {frame : Frame} (dispatches : Dispatches c frame) :
    frame.isCall = false := by
  cases dispatches <;> rfl

/-- A call on the stack was there before, or it was put there in this step. -/
theorem mem_call_next {w : World} {a : Action} (guard : w.Enabled a) {l : LoopId} {task : Task}
    (call : (Frame.job (.task task)).isCall = true)
    (member : .job (.task task) ∈ ((w.next a).loops l).stack) :
    .job (.task task) ∈ (w.loops l).stack ∨ Pushed w a l task := by
  refine (mem_stack_next guard member).imp_right fun new => ?_
  cases new with
  | dispatched named running c _ dispatches =>
      rw [dispatches.isCall] at call
      cases call
  | left kernel job running current _ left =>
      rw [(w.perform_leaves l kernel job _ left).isCall] at call
      cases call
  | called _ idle pushed => exact pushed
  | member running _ plain => cases plain

/-- Calls are on the top of a stack only, for their caller waits for them to return. -/
def CallsOnTop (w : World) : Prop :=
  ∀ l, ∀ frame ∈ (w.loops l).stack.tail, frame.isCall = false

theorem CallsOnTop.all {w : World} (onTop : w.CallsOnTop) {l : LoopId}
    (top : ∀ frame ∈ (w.loops l).stack.head?, frame.job? = none) :
    ∀ frame ∈ (w.loops l).stack, frame.isCall = false := by
  intro frame member
  have below := onTop l
  revert member below top
  cases (w.loops l).stack with
  | nil => exact fun _ member => absurd member List.not_mem_nil
  | cons first rest =>
      intro top member below
      rcases List.mem_cons.mp member with rfl | later
      · exact frame.isCall_of_idle (top frame rfl)
      · exact below frame later

theorem CallsOnTop.next {w : World} (onTop : w.CallsOnTop) {a : Action} (guard : w.Enabled a) :
    (w.next a).CallsOnTop := by
  intro l
  have change := next_stack guard l
  have old := onTop l
  generalize ((w.next a).loops l).stack = stack at change ⊢
  cases change with
  | same => exact old
  | dispatched named c revents running empty active =>
      exact fun frame member =>
        (w.dispatch_frames c revents frame (List.mem_of_mem_tail member)).isCall
  | ran kernel job loop running fetched =>
      intro frame member
      rcases List.mem_append.mp (List.mem_of_mem_tail member) with new | rest
      · exact (w.perform_leaves l kernel job frame new).isCall
      · exact old frame (Loop.fetch_tail fetched ▸ rest)
  | called task idle pushed => exact onTop.all (pushed.top guard idle)
  | submitted task rest running top =>
      exact fun frame member => old frame (by rw [top]; exact List.mem_of_mem_tail member)
  | returned held rest running top =>
      exact fun frame member => old frame (by rw [top]; exact List.mem_of_mem_tail member)
  | took t c held rest running top =>
      exact fun frame member => old frame (by rw [top]; exact member)
  | destroying running base =>
      subst running base
      exact onTop.all (destroyServer_top guard)
  | member frame frames rest running top plain others =>
      intro other member
      rcases List.mem_append.mp (List.mem_of_mem_tail member) with new | below
      · have none := (others other new).1
        cases other with
        | job code => cases none
        | user held | destroyServer | quitThread l | joinThread l | destroyAcceptor => rfl
      · exact old other (by rw [top]; exact below)

/-- The functors of `send` are with their callers: a call on the stack of the calling loop, a
functor queued for another loop, or in the hands of the calling thread. -/
structure SendersOk (w : World) : Prop where
  stack : ∀ l c data caller, .job (.task (.sendInLoop c data caller)) ∈ (w.loops l).stack →
    caller = .loop l
  waiting : ∀ l c data caller, .sendInLoop c data caller ∈ (w.loops l).functors.waiting →
    caller ≠ .loop l
  calling : ∀ t c data caller, (w.threads t).calling = some (.sendInLoop c data caller) →
    caller = .thread t

/-- What is queued of `send` and `shutdown` comes from the stack of another loop or from a
thread. -/
theorem Appended.call {w : World} {a : Action} {l : LoopId} {task : Task}
    (appended : Appended w a l task) (call : (Frame.job (.task task)).isCall = true) :
    (∃ l', l' ≠ l ∧ a = .submit l' ∧ w.submitted l' = some task) ∨
      ∃ t, a = .queueInLoop t ∧ (w.threads t).calling = some task := by
  cases appended with
  | byJob l' kernel job running current _ member target =>
      rcases (w.perform_calls l' kernel job).of_queued member with
        ⟨kind, rfl, _⟩ | ⟨c', rfl, _⟩ | ⟨c', rfl, _⟩
      · cases kind <;> cases call
      · cases call
      · cases call
  | submitted l' _ running top target =>
      have elsewhere := (submitted_eq top).2
      exact .inl ⟨l', fun same => elsewhere (same ▸ target), running, top⟩
  | byThread t _ running calling target => exact .inr ⟨t, running, calling⟩
  | connectEstablished l' accepting => cases call
  | connectDestroyed c running here => cases call

theorem SendersOk.next {w : World} (senders : w.SendersOk) (placed : w.Placed) {a : Action}
    (guard : w.Enabled a) : (w.next a).SendersOk := by
  refine ⟨fun l c data caller member => ?_, fun l c data caller member => ?_,
    fun t c data caller calling => ?_⟩
  · rcases mem_call_next guard rfl member with old | pushed
    · exact senders.stack l c data caller old
    · cases pushed with
      | sendInLoop _ _ running connected => rfl
  · rcases mem_waiting_next placed guard member with old | appended
    · exact senders.waiting l c data caller old
    · rcases appended.call rfl with ⟨l', other, _, top⟩ | ⟨t, _, calling⟩
      · rw [senders.stack l' c data caller (submitted_onStack top)]
        rintro ⟨⟩
        exact other rfl
      · rw [senders.calling t c data caller calling]
        exact nofun
  · rcases next_calling guard calling with ⟨old, _⟩ | called
    · exact senders.calling t c data caller old
    · cases called with
      | sendInLoop _ _ running connected => rfl

end World

theorem callsOnTop {w : World} (reachable : server.Reachable w) : w.CallsOnTop := by
  refine reachable.invariant (I := World.CallsOnTop) ?_ fun w a _ onTop guard => onTop.next guard
  rintro w ⟨name, ipPort, callbacks, ioLoops, users, rfl⟩
  exact fun _ => nofun

theorem sendersOk {w : World} (reachable : server.Reachable w) : w.SendersOk := by
  refine reachable.invariant (I := World.SendersOk) ?_
    fun w a before senders guard => senders.next (placed before) guard
  rintro w ⟨name, ipPort, callbacks, ioLoops, users, rfl⟩
  exact ⟨nofun, nofun, nofun⟩

namespace World

/-! ### No functor of `shutdown` while the state is `Connected` -/

def ShutdownWaiting (w : World) (c : ConnId) : Prop :=
  (∃ l, .shutdownInLoop c ∈ (w.loops l).tasks) ∨
    ∃ t, (w.threads t).calling = some (.shutdownInLoop c)

/-- The exchange of `state_` in `shutdown`. -/
def Exchanges (a : Action) (c : ConnId) : Prop :=
  (∃ l, a = .userShutdown l c) ∨ ∃ t, a = .shutdown t c

/-- The user calls `shutdown` on connections that are up. -/
theorem Exchanges.up {w : World} (placed : w.Placed) {a : Action} (guard : w.Enabled a)
    {c : ConnId} (exchanges : Exchanges a c) : w.Up c := by
  rcases exchanges with ⟨l, rfl⟩ | ⟨t, rfl⟩
  · exact (placed.loops l).copies c guard.2
  · exact (placed.threads t).copies c guard.2.2

theorem ShutdownWaiting.up {w : World} (placed : w.Placed) {c : ConnId}
    (waiting : w.ShutdownWaiting c) : w.Up c := by
  rcases waiting with ⟨l, member⟩ | ⟨t, calling⟩
  · exact (placed.task_ok member).1.2.1 rfl
  · exact ((placed.threads t).calling _ calling).2

theorem ShutdownWaiting.of_next {w : World} (placed : w.Placed) {a : Action}
    (guard : w.Enabled a) {c : ConnId} (waiting : (w.next a).ShutdownWaiting c) :
    w.ShutdownWaiting c ∨ Exchanges a c := by
  rcases Waits.of_next placed guard waiting with
    waits | ⟨l, pushed⟩ | ⟨l, appended⟩ | ⟨t, called⟩
  · exact .inl waits
  · cases pushed with
    | shutdownInLoop _ running connected => exact .inr (.inl ⟨l, running⟩)
  · rcases appended.call rfl with ⟨l', _, _, top⟩ | ⟨t, _, calling⟩
    · exact .inl (.inl ⟨l', mem_tasks_of_onStack (submitted_onStack top)⟩)
    · exact .inl (.inr ⟨t, calling⟩)
  · cases called with
    | shutdownInLoop _ running connected => exact .inr (.inr ⟨t, running⟩)

theorem exchanged_state (w : World) {a : Action} {c : ConnId} (exchanges : Exchanges a c) :
    ((w.next a).conns c).conn.state = .disconnecting := by
  rcases exchanges with ⟨l, rfl⟩ | ⟨t, rfl⟩ <;> simp only [next] <;> split <;>
    simp [TcpConnection.exchangeDisconnecting]

/-- Only `connectEstablished` makes a connection `Connected`. -/
theorem connected_of_next {w : World} (token : w.EstablishToken) {a : Action}
    (guard : w.Enabled a) {c : ConnId} (up : w.Up c)
    (connected : ((w.next a).conns c).conn.state = .connected) :
    (w.conns c).conn.state = .connected := by
  have change := next_change guard c
  generalize (w.next a).conns c = tracked at change connected
  cases change with
  | same => exact connected
  | constructed new => cases connected
  | performed l kernel job running current about here fits after events conn log deed =>
      subst about
      cases deed with
      | establish c => exact absurd up (token.not_up_of_current current)
      | destroy c => simp at connected
      | close callback c input closing => cases connected
      | send c data caller => rwa [TcpConnection.sendInLoop_state] at connected
      | shutdown c => rwa [TcpConnection.shutdownInLoop_eq] at connected
      | write c => exact ((w.conns c).conn.handleWrite_state fits).symm.trans connected
      | read c input events received => exact connected
      | remove c | other job | error c | closeCallback c | removeChannel c => exact connected
  | exchanged call => cases connected
  | marked mark => exact connected
  | retrieved len => exact connected

end World

theorem unconnected_of_shutdownWaiting {w : World} (reachable : server.Reachable w) {c : ConnId}
    (waiting : w.ShutdownWaiting c) : (w.conns c).conn.state ≠ .connected := by
  revert waiting
  refine reachable.invariant
    (I := fun w => w.ShutdownWaiting c → (w.conns c).conn.state ≠ .connected) ?_ ?_
  · rintro w ⟨name, ipPort, callbacks, ioLoops, users, rfl⟩ waiting
    rcases waiting with ⟨l, member⟩ | ⟨t, calling⟩
    · cases member
    · cases calling
  · intro w a before unconnected guard waiting connected
    change ((w.next a).conns c).conn.state = .connected at connected
    rcases World.ShutdownWaiting.of_next (placed before) guard waiting with old | exchanges
    · exact unconnected old
        (World.connected_of_next (establishToken before) guard (old.up (placed before)) connected)
    · rw [World.exchanged_state w exchanges] at connected
      cases connected

/-! ### The order of one thread's functors -/

/-- `T` is the thread that sends and shuts down: no other one calls `shutdown`. -/
def OnlyShutdownBy (T : Caller) (c : ConnId) : Action → Prop
  | .userShutdown l c' => c' = c → T = .loop l
  | .shutdown t c' => c' = c → T = .thread t
  | _ => True

instance (T : Caller) (c : ConnId) : ∀ action, Decidable (OnlyShutdownBy T c action)
  | .userShutdown _ _ | .shutdown _ _ => inferInstanceAs (Decidable (_ → _))
  | .enterLoop _ | .poll _ _ | .handleEvent _ _ | .doPendingFunctors _ | .endBatch _
  | .destroyLoop _ | .run _ _ | .submit _ | .userSend _ _ _ | .userSetHighWaterMarkCallback _ _ _
  | .userRetrieve _ _ _ | .userTake _ _ _ | .userGive _ _ _ | .userReturn _ | .copy _ _ _
  | .drop _ _ | .send _ _ _ | .queueUser _ _ | .queueInLoop _ | .quit _ | .destroyServer
  | .destroyConnection _ | .destroyMember => inferInstanceAs (Decidable True)

namespace World

/-- A functor is still with `T`: on the stack of its loop, which is not the connection's, or in the
hands of its thread. -/
def InFlight (w : World) (c : ConnId) (task : Task) : Caller → Prop
  | .loop l => l ≠ (w.conns c).conn.loop ∧ .job (.task task) ∈ (w.loops l).stack
  | .thread t => (w.threads t).calling = some task

/-- The functors of `shutdown` are `T`'s, and none of its sends comes after one. -/
structure SendsFirst (w : World) (T : Caller) (c : ConnId) : Prop where
  stack : ∀ l, .job (.task (.shutdownInLoop c)) ∈ (w.loops l).stack → T = .loop l
  calling : ∀ t, (w.threads t).calling = some (.shutdownInLoop c) → T = .thread t
  behind : (w.loops (w.conns c).conn.loop).tasks.Pairwise fun first later =>
    first = .shutdownInLoop c → ∀ data, later ≠ .sendInLoop c data T
  inFlight : .shutdownInLoop c ∈ (w.loops (w.conns c).conn.loop).tasks →
    ∀ data, ¬ w.InFlight c (.sendInLoop c data T) T

/-- What comes from a loop's stack or a thread's hands was in flight. -/
theorem InFlight.of_submitted {w : World} {c : ConnId} {task : Task} {l : LoopId}
    (other : l ≠ (w.conns c).conn.loop) (top : w.submitted l = some task) :
    w.InFlight c task (.loop l) := ⟨other, submitted_onStack top⟩

/-- A send that is in flight behind the step was before, or its call begins while `Connected`. -/
theorem InFlight.of_next {w : World} (placed : w.Placed) {a : Action} (guard : w.Enabled a)
    {c : ConnId} (known : c < w.created) {data : List Byte} {T : Caller}
    (inFlight : (w.next a).InFlight c (.sendInLoop c data T) T) :
    w.InFlight c (.sendInLoop c data T) T ∨ (w.conns c).conn.state = .connected := by
  cases T with
  | loop l =>
      obtain ⟨other, onStack⟩ := inFlight
      rw [(placed.next_extends guard).loop c known] at other
      rcases mem_call_next guard rfl onStack with old | pushed
      · exact .inl ⟨other, old⟩
      · cases pushed with
        | sendInLoop _ _ running connected => exact .inr (of_decide_eq_true connected)
  | thread t =>
      rcases next_calling guard inFlight with ⟨old, _⟩ | called
      · exact .inl old
      · cases called with
        | sendInLoop _ _ running connected => exact .inr (of_decide_eq_true connected)

end World

/-- User code on the connection's own loop has no send of its own waiting there. -/
theorem own_send_notMem {w : World} (reachable : server.Reachable w) {l : LoopId}
    (top : ∀ frame ∈ (w.loops l).stack.head?, frame.job? = none) (c : ConnId)
    (data : List Byte) : .sendInLoop c data (.loop l) ∉ (w.loops l).tasks := by
  intro member
  rcases List.mem_append.mp member with called | waiting
  · obtain ⟨frame, onStack, called⟩ := List.mem_filterMap.mp called
    have plain := (callsOnTop reachable).all top frame onStack
    unfold Frame.task? at called
    split at called
    · cases called
      cases plain
    all_goals cases called
  · exact (sendersOk reachable).waiting l c data _ waiting rfl

section Step

variable {w : World} (reachable : server.Reachable w) {T : Caller} {c : ConnId} {a : Action}
  (guard : w.Enabled a)
  (only : (w.conns c).conn.state = .connected → OnlyShutdownBy T c a) (known : c < w.created)
  (sends : w.SendsFirst T c)

include reachable guard only sends

/-- No step puts a send of `T` behind a functor of its `shutdown`. -/
theorem sendsFirst_behind :
    ((w.next a).loops (w.conns c).conn.loop).tasks.Pairwise fun first later =>
      first = .shutdownInLoop c → ∀ data, later ≠ .sendInLoop c data T := by
  have senders := sendersOk reachable
  obtain ⟨taken, pushed, rest, queued, takes, before, same, pushes, appends, few⟩ :=
    World.next_flow (placed reachable) guard (w.conns c).conn.loop
  have old := sends.behind
  rw [before] at old
  have shuts : .shutdownInLoop c ∈ pushed →
      a = .userShutdown (w.conns c).conn.loop c ∧ (w.conns c).conn.state = .connected := by
    intro member
    cases pushes _ member with
    | shutdownInLoop _ running connected => exact ⟨running, connected⟩
  rw [same, List.pairwise_append, List.pairwise_append]
  refine ⟨⟨List.pairwise_of_forall_mem_list ?_, (List.pairwise_append.mp old).2.1, ?_⟩,
    List.pairwise_of_forall_mem_list ?_, ?_⟩
  · rintro first shut later sent rfl data rfl
    have running := (shuts shut).1
    cases pushes _ sent with
    | sendInLoop _ _ running' connected =>
        rw [running] at running'
        cases running'
  · rintro first shut later sent rfl data rfl
    obtain ⟨running, connected⟩ := shuts shut
    have mine : T = .loop (w.conns c).conn.loop := by
      rw [running] at only
      exact only connected rfl
    have top := (pushes _ shut).top guard (by rw [running]; exact nofun)
    refine own_send_notMem reachable top c data ?_
    rw [before, ← mine]
    exact List.mem_append_right _ sent
  · rintro first shut later sent rfl data rfl
    rcases (appends _ shut).call rfl with ⟨l, _, running, top⟩ | ⟨t, running, calling⟩ <;>
      rcases (appends _ sent).call rfl with ⟨l', _, running', top'⟩ | ⟨t', running', calling'⟩ <;>
      rw [running] at running' <;> cases running'
    · rw [top] at top'
      cases top'
    · rw [calling] at calling'
      cases calling'
  · rintro first shut later sent rfl data rfl
    have source := (appends _ sent).call rfl
    rcases List.mem_append.mp shut with shut | shut
    · have running := (shuts shut).1
      rcases source with ⟨l', _, running', _⟩ | ⟨t, running', _⟩ <;> rw [running] at running' <;>
        cases running'
    · refine sends.inFlight (by rw [before]; exact List.mem_append_right _ shut) data ?_
      rcases source with ⟨l', other, _, top⟩ | ⟨t, _, calling⟩
      · obtain rfl := senders.stack l' c data T (World.submitted_onStack top)
        exact .of_submitted other top
      · obtain rfl := senders.calling t c data T calling
        exact calling

include known

/-- Nor does `T` begin one while such a functor waits. -/
theorem sendsFirst_inFlight
    (member : .shutdownInLoop c ∈ ((w.next a).loops (w.conns c).conn.loop).tasks)
    (data : List Byte) : ¬ (w.next a).InFlight c (.sendInLoop c data T) T := by
  intro inFlight
  have placed := placed reachable
  have sameLoop := (placed.next_extends guard).loop c known
  obtain ⟨taken, pushed, rest, queued, takes, before, same, pushes, appends, few⟩ :=
    World.next_flow placed guard (w.conns c).conn.loop
  rw [same, List.mem_append, List.mem_append] at member
  rcases member with (new | old) | new
  · cases pushes _ new with
    | shutdownInLoop _ running connected =>
        subst running
        obtain rfl : T = .loop (w.conns c).conn.loop := only connected rfl
        exact inFlight.1 sameLoop.symm
  · have waits : .shutdownInLoop c ∈ (w.loops (w.conns c).conn.loop).tasks := by
      rw [before]
      exact List.mem_append_right _ old
    rcases World.InFlight.of_next placed guard known inFlight with before | connected
    · exact sends.inFlight waits data before
    · exact unconnected_of_shutdownWaiting reachable (.inl ⟨_, waits⟩) connected
  · rcases (appends _ new).call rfl with ⟨l, _, rfl, top⟩ | ⟨t, rfl, calling⟩
    · obtain rfl := sends.stack l (World.submitted_onStack top)
      rcases World.mem_call_next guard rfl inFlight.2 with onStack | pushed
      · -- the call of `shutdown` is on the top, so the other one cannot be
        obtain ⟨rest, stack⟩ := List.head?_eq_some_iff.mp (World.submitted_eq top).1
        rw [stack] at onStack
        rcases List.mem_cons.mp onStack with same | below
        · cases same
        · have plain := callsOnTop reachable l _ (by rw [stack]; exact below)
          cases plain
      · cases pushed with
        | sendInLoop _ _ running connected => cases running
    · obtain rfl := sends.calling t calling
      rcases World.next_calling guard inFlight with ⟨_, other⟩ | called
      · exact other rfl
      · cases called with
        | sendInLoop _ _ running connected => cases running

end Step

theorem sendsFirst_next {w : World} (reachable : server.Reachable w) {T : Caller} {c : ConnId}
    {a : Action} (guard : w.Enabled a)
    (only : (w.conns c).conn.state = .connected → OnlyShutdownBy T c a) (known : c < w.created)
    (sends : w.SendsFirst T c) : (w.next a).SendsFirst T c := by
  have sameLoop := ((placed reachable).next_extends guard).loop c known
  refine ⟨fun l member => ?_, fun t calling => ?_, ?_, fun member data => ?_⟩
  · rcases World.mem_call_next guard rfl member with old | new
    · exact sends.stack l old
    · cases new with
      | shutdownInLoop _ running connected =>
          subst running
          exact only connected rfl
  · rcases World.next_calling guard calling with ⟨old, _⟩ | called
    · exact sends.calling t old
    · cases called with
      | shutdownInLoop _ running connected =>
          subst running
          exact only connected rfl
  · rw [sameLoop]
    exact sendsFirst_behind reachable guard only sends
  · rw [sameLoop] at member
    exact sendsFirst_inFlight reachable guard only known sends member data

/-- A connection that the step constructs is not up, so nothing can have called its functions. -/
theorem sendsFirst_fresh {w : World} (reachable : server.Reachable w) {a : Action}
    (guard : w.Enabled a) {c : ConnId} (unknown : w.created ≤ c) (T : Caller) :
    (w.next a).SendsFirst T c := by
  have placed' := (placed reachable).next guard
  have blank := (placed reachable).next_history_unknown guard unknown
  have none : ¬ (w.next a).ShutdownWaiting c := by
    intro waiting
    have event := (waiting.up placed').2
    rw [blank] at event
    exact absurd event List.not_mem_nil
  refine ⟨fun l member => ?_, fun t calling => ?_, ?_, fun member => ?_⟩
  · exact absurd (.inl ⟨l, World.mem_tasks_of_onStack member⟩) none
  · exact absurd (.inr ⟨t, calling⟩) none
  · refine List.pairwise_of_forall_mem_list fun first member later _ shut => ?_
    exact absurd (.inl ⟨_, shut ▸ member⟩) none
  · exact absurd (.inl ⟨_, member⟩) none

end EduMuduo

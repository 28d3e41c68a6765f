/-
Module: EduMuduo.Proofs.ServerSteps
Layer: Proofs
Purpose: What one step of the server can do to a connection, said once (`Change`), and what each
  change to a part of the world leaves alone.
Imports: EduMuduo.Core.ServerMachine, EduMuduo.Proofs.ConnectionOperations
Trusted boundary: none
Main exports: Loop.Fetched, Loop.fetched, World.Deed, World.perform_deed, World.Change,
  World.next_change
-/
import EduMuduo.Core.ServerMachine
import EduMuduo.Proofs.ConnectionOperations

namespace EduMuduo

open Library

/-! ### The connection map -/

namespace ConnectionMap

theorem mem_emplace {map : ConnectionMap} {name : String} {c : ConnId} {entry : String × ConnId}
    (member : entry ∈ map.emplace name c) : entry = (name, c) ∨ entry ∈ map := by
  rw [emplace] at member
  split at member
  · exact .inr member
  · exact List.mem_cons.mp member

theorem mem_emplace_of_mem {map : ConnectionMap} {name : String} {c : ConnId}
    {entry : String × ConnId} (member : entry ∈ map) : entry ∈ map.emplace name c := by
  rw [emplace]
  split
  · exact member
  · exact List.mem_cons_of_mem _ member

theorem mem_erase {map : ConnectionMap} {name : String} {entry : String × ConnId} :
    entry ∈ map.erase name ↔ entry ∈ map ∧ entry.1 ≠ name := by
  simp [erase]

theorem contains_of_mem {map : ConnectionMap} {name : String} {c : ConnId}
    (member : (name, c) ∈ map) : map.contains name = true :=
  List.any_eq_true.mpr ⟨_, member, beq_self_eq_true _⟩

end ConnectionMap

/-! ### The next job -/

/-- Where the next job of a loop thread comes from, and what is left of the loop. -/
inductive Loop.Fetched (loop : Loop) : Job → Loop → Prop where
  | called (job : Job) (rest : List Frame) (top : loop.stack = .job job :: rest) :
      Fetched loop job loop.pop
  | functor (task : Task) (rest : List Task) (bottom : loop.stack = [])
      (draining : loop.phase = .draining) (next : loop.functors.batch = task :: rest) :
      Fetched loop (.task task) { loop with functors := loop.functors.advance }

theorem Loop.fetched {loop after : Loop} {job : Job} (fetched : loop.fetch = some (job, after)) :
    loop.Fetched job after := by
  unfold fetch at fetched
  split at fetched
  · rename_i found rest top
    cases fetched
    exact .called job rest top
  · cases fetched
  · rename_i bottom
    split at fetched
    · rename_i draining
      split at fetched
      · rename_i task rest next
        cases fetched
        exact .functor task rest bottom draining next
      · cases fetched
    · cases fetched

namespace World

/-- The job that runs next has been fetched. -/
theorem exists_fetch {w : World} {l : LoopId} {job : Job} (current : w.current l = some job) :
    ∃ loop, (w.loops l).fetch = some (job, loop) := by
  obtain ⟨⟨found, loop⟩, fetched, rfl⟩ := Option.map_eq_some_iff.mp current
  exact ⟨loop, fetched⟩

theorem current_of_fetch {w : World} {l : LoopId} {job : Job} {loop : Loop}
    (fetched : (w.loops l).fetch = some (job, loop)) : w.current l = some job := by
  rw [current, fetched]
  rfl

/-! ### The parts that a change leaves alone -/

@[simp] theorem setLoop_loops (w : World) (l : LoopId) (loop : Loop) :
    (w.setLoop l loop).loops = Function.update w.loops l loop := rfl

/-- A part of a loop when some loop has been replaced. -/
theorem setLoop_part {Part : Type*} (part : Loop → Part) (w : World) (l l' : LoopId)
    (loop : Loop) :
    part ((w.setLoop l' loop).loops l) = if l = l' then part loop else part (w.loops l) := by
  rw [setLoop_loops, Function.update_apply]
  split <;> rfl

/-- A part that the new loop has taken over from the old one. -/
theorem setLoop_part_same {Part : Type*} (part : Loop → Part) (w : World) (l l' : LoopId)
    {loop : Loop} (same : part loop = part (w.loops l')) :
    part ((w.setLoop l' loop).loops l) = part (w.loops l) := by
  rw [setLoop_part part]
  split
  · rename_i here
    rw [same, here]
  · rfl

@[simp] theorem setLoop_conns (w : World) (l : LoopId) (loop : Loop) :
    (w.setLoop l loop).conns = w.conns := rfl

@[simp] theorem setLoop_setLoop (w : World) (l : LoopId) (first second : Loop) :
    (w.setLoop l first).setLoop l second = w.setLoop l second := by
  simp [setLoop]

@[simp] theorem setLoop_self (w : World) (l : LoopId) : w.setLoop l (w.loops l) = w := by
  simp [setLoop]

@[simp] theorem setConn_conns (w : World) (c : ConnId) (conn : TcpConnection)
    (events : List Event) : (w.setConn c conn events).conns =
      Function.update w.conns c ⟨conn, (w.conns c).history ++ events⟩ := rfl

theorem setConn_self (w : World) (c : ConnId) (conn : TcpConnection) (events : List Event) :
    (w.setConn c conn events).conns c = ⟨conn, (w.conns c).history ++ events⟩ :=
  Function.update_self _ _ _

@[simp] theorem setConn_loops (w : World) (c : ConnId) (conn : TcpConnection)
    (events : List Event) : (w.setConn c conn events).loops = w.loops := rfl

@[simp] theorem setThread_conns (w : World) (t : ThreadId) (thread : UserThread) :
    (w.setThread t thread).conns = w.conns := rfl

@[simp] theorem setThread_threads (w : World) (t : ThreadId) (thread : UserThread) :
    (w.setThread t thread).threads = Function.update w.threads t thread := rfl

@[simp] theorem queueInLoop_conns (w : World) (l : LoopId) (tasks : List Task) :
    (w.queueInLoop l tasks).conns = w.conns := rfl

@[simp] theorem queueInLoop_loops (w : World) (l : LoopId) (tasks : List Task) :
    (w.queueInLoop l tasks).loops =
      Function.update w.loops l ((w.loops l).queueInLoop tasks) := rfl

@[simp] theorem runInLoop_conns (w : World) (l ioLoop : LoopId) (task : Task) :
    (w.runInLoop l ioLoop task).conns = w.conns := by
  rw [runInLoop]
  split <;> rfl

@[simp] theorem getNextLoop_callbacks (server : TcpServer) :
    (getNextLoop server).2.callbacks = server.callbacks := by
  rw [getNextLoop]
  split <;> rfl

@[simp] theorem getNextLoop_connections (server : TcpServer) :
    (getNextLoop server).2.connections = server.connections := by
  rw [getNextLoop]
  split <;> rfl

@[simp] theorem countAccepted_conns (w : World) : w.countAccepted.conns = w.conns := rfl

@[simp] theorem countAccepted_loops (w : World) : w.countAccepted.loops = w.loops := rfl

@[simp] theorem countAccepted_created (w : World) : w.countAccepted.created = w.created := rfl

@[simp] theorem countAccepted_callbacks (w : World) :
    w.countAccepted.server.callbacks = w.server.callbacks := getNextLoop_callbacks w.server

@[simp] theorem countAccepted_connections (w : World) :
    w.countAccepted.server.connections = w.server.connections :=
  getNextLoop_connections w.server

theorem addConnection_new (w : World) (ioLoop : LoopId) (name : String) :
    (w.addConnection ioLoop name).conns w.created =
      ⟨.construct w.created ioLoop name w.server.callbacks, []⟩ :=
  Function.update_self _ _ _

theorem addConnection_other (w : World) (ioLoop : LoopId) (name : String) {c : ConnId}
    (other : c ≠ w.created) : (w.addConnection ioLoop name).conns c = w.conns c :=
  Function.update_of_ne other _ _

theorem newConnection_new (w : World) (l : LoopId) :
    (w.newConnection l true).conns w.created =
      ⟨.construct w.created (getNextLoop w.server).1 (nextName (getNextLoop w.server).2)
        w.server.callbacks, []⟩ := by
  simp only [newConnection, if_true, runInLoop_conns]
  exact (addConnection_new _ _ _).trans (by rw [countAccepted_callbacks]; rfl)

theorem newConnection_other (w : World) (l : LoopId) (named : Bool) {c : ConnId}
    (other : c ≠ w.created) : (w.newConnection l named).conns c = w.conns c := by
  cases named with
  | false => rfl
  | true =>
      simp only [newConnection, if_true, runInLoop_conns]
      exact addConnection_other _ _ _ other

theorem inUserCode_eq {loop : Loop} (inside : loop.inUserCode = true) :
    ∃ held rest, loop.stack = .user held :: rest := by
  unfold Loop.inUserCode at inside
  split at inside
  · rename_i held rest top
    exact ⟨held, rest, top⟩
  · cases inside

theorem copies_eq {loop : Loop} {c : ConnId} (member : c ∈ loop.copies) :
    ∃ held rest, loop.stack = .user held :: rest ∧ c ∈ held := by
  unfold Loop.copies at member
  split at member
  · rename_i held rest top
    exact ⟨held, rest, top, member⟩
  · exact absurd member List.not_mem_nil

theorem submitted_eq {w : World} {l : LoopId} {task : Task}
    (submitted : w.submitted l = some task) :
    (w.loops l).stack.head? = some (.job (.task task)) ∧ w.target task ≠ l := by
  unfold World.submitted at submitted
  split at submitted
  · rename_i top
    split at submitted
    · cases submitted
    · rename_i elsewhere
      cases submitted
      exact ⟨by rw [top]; rfl, elsewhere⟩
  · cases submitted

theorem submitted_onStack {w : World} {l : LoopId} {task : Task}
    (submitted : w.submitted l = some task) : .job (.task task) ∈ (w.loops l).stack :=
  List.mem_of_mem_head? (submitted_eq submitted).1

/-! ### What a job makes of its connection -/

/-- The new value of the connection and the new events, job by job. -/
inductive Deed (l : LoopId) (kernel : Kernel) (conn : TcpConnection) :
    Job → TcpConnection → List Event → Prop where
  | establish (c : ConnId) :
      Deed l kernel conn (.task (.connectEstablished c)) conn.connectEstablished
        (.connectEstablished l ::
          if conn.callbacks.connectionCallback then [.connectionCallback true] else [])
  | destroy (c : ConnId) :
      Deed l kernel conn (.task (.connectDestroyed c)) conn.connectDestroyed.1
        (.connectDestroyed l ::
          if conn.connectDestroyed.2 then [.connectionCallback false] else [])
  | remove (c : ConnId) :
      Deed l kernel conn (.task (.removeConnectionInLoop c)) conn [.removeConnectionInLoop]
  | send (c : ConnId) (data : List Byte) (caller : Caller) :
      Deed l kernel conn (.task (.sendInLoop c data caller))
        (conn.sendInLoop data kernel.write).1 []
  | shutdown (c : ConnId) :
      Deed l kernel conn (.task (.shutdownInLoop c)) conn.shutdownInLoop []
  | other (job : Job) : Deed l kernel conn job conn []
  | close (callback : Channel.Callback) (c : ConnId) (input : SafeBuffer)
      (closing : callback = .close ∨ callback = .read ∧ kernel.read = .data []) :
      Deed l kernel conn (.callback callback c) { conn with inputBuffer := input }.handleClose
        (.handler l callback :: .handleClose ::
          if conn.callbacks.connectionCallback then [.connectionCallback false] else [])
  | error (c : ConnId) : Deed l kernel conn (.callback .error c) conn [.handler l .error]
  | read (c : ConnId) (input : SafeBuffer) (events : List Event)
      (received : events = [] ∨ events = [.messageCallback] ∧
        conn.callbacks.messageCallback = true ∧ ∃ bytes, bytes ≠ [] ∧ kernel.read = .data bytes) :
      Deed l kernel conn (.callback .read c) { conn with inputBuffer := input }
        (.handler l .read :: events)
  | write (c : ConnId) :
      Deed l kernel conn (.callback .write c) (conn.handleWrite kernel.write).1
        [.handler l .write]
  | closeCallback (c : ConnId) : Deed l kernel conn (.closeCallback c) conn [.closeCallback]
  | removeChannel (c : ConnId) :
      Deed l kernel conn (.removeChannel c) conn.removeChannel [.connectDestroyedReturned]

theorem perform_deed (w : World) (l : LoopId) (kernel : Kernel) (job : Job) :
    Deed l kernel (w.conns job.conn).conn job (w.perform l kernel job).conn
      (w.perform l kernel job).events := by
  cases job with
  | task task =>
      cases task with
      | connectEstablished c => exact .establish c
      | connectDestroyed c => exact .destroy c
      | removeConnectionInLoop c =>
          have same : (w.removeConnectionInLoop c).conn = (w.conns c).conn ∧
              (w.removeConnectionInLoop c).events = [.removeConnectionInLoop] := by
            rw [removeConnectionInLoop]
            split <;> exact ⟨rfl, rfl⟩
          change Deed l kernel (w.conns c).conn _ (w.removeConnectionInLoop c).conn
            (w.removeConnectionInLoop c).events
          rw [same.1, same.2]
          exact .remove c
      | sendInLoop c data caller => exact .send c data caller
      | shutdownInLoop c => exact .shutdown c
      | writeCompleteCallback c => exact .other _
      | highWaterMarkCallback c total => exact .other _
      | user c => exact .other _
  | callback callback c =>
      cases callback with
      | close => exact .close .close c (w.conns c).conn.inputBuffer (.inl rfl)
      | error => exact .error c
      | read =>
          cases result : kernel.read with
          | failed errno =>
              simp only [perform, runCallback, handleRead, TcpConnection.handleRead, result]
              exact .read c _ [] (.inl rfl)
          | data bytes =>
              by_cases none : bytes = []
              · subst none
                simp only [perform, runCallback, handleRead, TcpConnection.handleRead, result]
                exact .close .read c _ (.inr ⟨rfl, result⟩)
              · have some : 0 < bytes.length := List.length_pos_iff.mpr none
                simp only [perform, runCallback, handleRead, TcpConnection.handleRead, result,
                  gt_iff_lt, if_pos some]
                split
                · rename_i wanted
                  exact .read c _ [.messageCallback] (.inr ⟨rfl, wanted, bytes, none, result⟩)
                · exact .read c _ [] (.inl rfl)
      | write => exact .write c
  | releaseGuard c => exact .other _
  | closeCallback c =>
      have same : (w.closeCallback l c).conn = (w.conns c).conn ∧
          (w.closeCallback l c).events = [.closeCallback] := by
        rw [closeCallback]
        split <;> exact ⟨rfl, rfl⟩
      change Deed l kernel (w.conns c).conn _ (w.closeCallback l c).conn
        (w.closeCallback l c).events
      rw [same.1, same.2]
      exact .closeCallback c
  | removeChannel c => exact .removeChannel c

/-! ### What a step does to a connection -/

/-- Everything that action `a` can make of connection `c`. -/
inductive Change (w : World) (a : Action) (c : ConnId) : Tracked → Prop where
  | same : Change w a c (w.conns c)
  | constructed (new : c = w.created) (l : LoopId) (named : a = .handleEvent l true)
      (ioLoop : LoopId) (name : String) :
      Change w a c ⟨.construct c ioLoop name w.server.callbacks, []⟩
  | performed (l : LoopId) (kernel : Kernel) (job : Job) (running : a = .run l kernel)
      (current : w.current l = some job) (about : job.conn = c) (here : w.RunsHere l job)
      (fits : w.KernelFits kernel job) (after : TcpConnection) (events : List Event)
      (conn : after = (w.perform l kernel job).conn)
      (log : events = (w.perform l kernel job).events)
      (deed : Deed l kernel (w.conns c).conn job after events) :
      Change w a c ⟨after, (w.conns c).history ++ events⟩
  | exchanged (call : (∃ l, a = .userShutdown l c) ∨ ∃ t, a = .shutdown t c) :
      Change w a c ⟨(w.conns c).conn.exchangeDisconnecting.1, (w.conns c).history⟩
  | marked (mark : Nat) :
      Change w a c ⟨(w.conns c).conn.setHighWaterMarkCallback mark, (w.conns c).history⟩
  | retrieved (len : Nat) :
      Change w a c
        ⟨{ (w.conns c).conn with
            inputBuffer := (w.conns c).conn.inputBuffer.retrieve len }, (w.conns c).history⟩

/-- Setting the value of one connection is a change to that connection only. -/
theorem Change.of_setConn {w : World} {a : Action} {c : ConnId} (c' : ConnId)
    {conn : TcpConnection} {events : List Event} {conns : ConnId → Tracked}
    (set : conns = (w.setConn c' conn events).conns)
    (change : c = c' → Change w a c ⟨conn, (w.conns c).history ++ events⟩) :
    Change w a c (conns c) := by
  rw [set, setConn_conns, Function.update_apply]
  split
  · rename_i same
    subst same
    exact change rfl
  · exact .same

/-- A new connection is the only one that `newConnection` touches. -/
theorem Change.of_newConnection {w w' : World} {l : LoopId} {named : Bool} {c : ConnId}
    (conns : w'.conns = w.conns) (created : w'.created = w.created)
    (callbacks : w'.server.callbacks = w.server.callbacks) :
    Change w (.handleEvent l named) c ((w'.newConnection l named).conns c) := by
  by_cases new : c = w'.created
  · cases named with
    | false => exact conns ▸ .same
    | true =>
        subst new
        rw [newConnection_new, callbacks]
        exact .constructed created l rfl _ _
  · rw [newConnection_other _ _ _ new, conns]
    exact .same

theorem next_change {w : World} {a : Action} (guard : w.Enabled a) (c : ConnId) :
    Change w a c ((w.next a).conns c) := by
  cases a with
  | run l kernel =>
      obtain ⟨_, job, current, here, fits⟩ := guard
      rw [next]
      split
      · rename_i found loop fetched
        obtain rfl : found = job := Option.some.inj ((current_of_fetch fetched).symm.trans current)
        refine .of_setConn found.conn rfl fun about => ?_
        exact .performed l kernel found rfl current about.symm here fits _ _ rfl rfl
          (about ▸ w.perform_deed l kernel found)
      · exact .same
  | handleEvent l named =>
      rw [next]
      split
      · exact .same
      · rename_i active rest _
        cases active with
        | channel c' revents => exact .same
        | acceptor =>
            rw [handleEvent]
            split
            · exact .same
            · exact .of_newConnection rfl rfl rfl
  | userShutdown l c' =>
      have set : (w.next (.userShutdown l c')).conns =
          (w.setConn c' (w.conns c').conn.exchangeDisconnecting.1 []).conns := by
        simp only [next]
        split <;> rfl
      refine .of_setConn c' set ?_
      rintro rfl
      rw [List.append_nil]
      exact .exchanged (.inl ⟨l, rfl⟩)
  | shutdown t c' =>
      have set : (w.next (.shutdown t c')).conns =
          (w.setConn c' (w.conns c').conn.exchangeDisconnecting.1 []).conns := by
        simp only [next]
        split <;> rfl
      refine .of_setConn c' set ?_
      rintro rfl
      rw [List.append_nil]
      exact .exchanged (.inr ⟨t, rfl⟩)
  | userSetHighWaterMarkCallback l c' mark =>
      refine .of_setConn c' rfl ?_
      rintro rfl
      rw [List.append_nil]
      exact .marked mark
  | userRetrieve l c' len =>
      refine .of_setConn c' rfl ?_
      rintro rfl
      rw [List.append_nil]
      exact .retrieved len
  | destroyConnection c' =>
      simp only [next, runInLoop_conns]
      exact .same
  | userSend l c' data | send t c' data | submit l | queueInLoop t =>
      rw [next]
      split <;> exact .same
  | destroyMember =>
      rw [next, destroyMember]
      split <;> exact .same
  | enterLoop l | poll l active | doPendingFunctors l | endBatch l | destroyLoop l | userTake l t c'
  | userGive l t c' | userReturn l | copy t other c' | drop t c' | queueUser t c' | quit l
  | destroyServer =>
      exact .same

end World

end EduMuduo

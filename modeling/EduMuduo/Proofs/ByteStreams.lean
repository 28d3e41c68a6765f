/-
Module: EduMuduo.Proofs.ByteStreams
Layer: Proofs
Purpose: The bytes of a connection over the runs of a server, in both directions.  Whatever the
  kernel answers, what a connection has on its descriptor and in its output buffer is made of the
  messages sent to it: bytes may be missing, but none is invented, repeated or out of order.  While
  write events take nothing or everything and no write fails for good, none is missing, and the
  output is an interleaving of whole messages in which every sender's keep their order.  On the way
  in nothing is lost: user code retrieves exactly the bytes that were read.
Imports: EduMuduo.Proofs.OutputStream, EduMuduo.Proofs.SendOrder
Trusted boundary: none
Main exports: World.WireStep, World.next_wire, wirePipe, KeepsStream, output_made_of_messages,
  output_interleaves_senders, World.received, World.retrieved, input_conserved
-/
import EduMuduo.Proofs.OutputStream
import EduMuduo.Proofs.SendOrder

namespace EduMuduo

open Library

namespace TcpConnection

/-! ### One job -/

/-- A send adds at most its message to the stream. -/
theorem sendInLoop_stream_sublist (self : TcpConnection) (data : List Byte)
    (result : WriteResult) :
    (self.sendInLoop data result).1.stream.Sublist (self.stream ++ data) := by
  cases self.sendInLoop_effect data result with
  | written idle drained n whole answer same =>
      apply Machine.sublist_of_eq
      simp [same, stream, Socket.write, drained]
  | discarded idle drained errno answer dropped same =>
      have kept : (self.sendInLoop data result).1.stream = self.stream := by
        simp [same, stream, Socket.write]
      rw [kept]
      exact List.sublist_append_left _ _
  | split idle drained n short answer same =>
      apply Machine.sublist_of_eq
      simp [same, stream, Socket.write, drained]
  | buffered pending some same =>
      apply Machine.sublist_of_eq
      simp [same, stream]
  | nothing pending none same =>
      rw [same]
      exact List.sublist_append_left _ _

/-- A write event moves bytes from the buffer to the descriptor and adds none. -/
theorem handleWrite_stream_sublist (self : TcpConnection) {result : WriteResult}
    (fits : result.Fits self.outputBuffer.readableBytes) :
    (self.handleWrite result).1.stream.Sublist self.stream := by
  have survive : ∀ n, (self.outputBuffer.contents.take n ++
      (self.outputBuffer.contents.drop n).drop n).Sublist self.outputBuffer.contents := by
    intro n
    have rest := List.drop_sublist n (self.outputBuffer.contents.drop n)
    have whole := rest.append_left (self.outputBuffer.contents.take n)
    rwa [List.take_append_drop] at whole
  cases self.handleWrite_effect fits with
  | idle idle same => exact Machine.sublist_of_eq (by rw [same])
  | failed writing errno answer same =>
      apply Machine.sublist_of_eq
      simp [same, stream, Socket.write]
  | kept writing n answer buffer contents pending same =>
      have after : (self.handleWrite result).1.stream = self.socket.accepted ++
          (self.outputBuffer.contents.take n ++ (self.outputBuffer.contents.drop n).drop n) := by
        rw [same, stream, contents, Socket.write, List.append_assoc]
      rw [after]
      exact (survive n).append_left _
  | drained writing n answer some buffer contents empty same =>
      have accepted : (self.handleWrite result).1.socket.accepted =
          self.socket.accepted ++ self.outputBuffer.contents.take n := by
        rw [same]
        dsimp only
        split <;> rfl
      have left : (self.handleWrite result).1.outputBuffer.contents = [] := by rw [same, empty]
      rw [stream, accepted, left, List.append_nil]
      exact (List.take_sublist _ _).append_left _

end TcpConnection

namespace World

/-- A connection that is not constructed yet has moved no byte. -/
structure Pristine (w : World) (c : ConnId) : Prop where
  stream : (w.conns c).conn.stream = []
  input : (w.conns c).conn.inputBuffer.contents = []

theorem construct_pristine {w : World} {c : ConnId} {loop : LoopId} {name : String}
    {callbacks : Callbacks} (new : (w.conns c).conn = .construct c loop name callbacks) :
    w.Pristine c := by
  constructor <;>
    simp [new, TcpConnection.stream, TcpConnection.construct, Socket.fresh]

theorem Pristine.next {w : World} (placed : w.Placed) {a : Action} (guard : w.Enabled a)
    {c : ConnId} (pristine : w.Pristine c) (unborn : w.created ≤ c) : (w.next a).Pristine c := by
  generalize after : (w.next a).conns c = tracked
  have change := next_change guard c
  rw [after] at change
  cases change with
  | same => exact ⟨after ▸ pristine.stream, after ▸ pristine.input⟩
  | constructed new => exact construct_pristine (congrArg Tracked.conn after)
  | performed l kernel job running current about =>
      exact absurd (about ▸ (placed.current_ok current).known) (Nat.not_lt_of_le unborn)
  | exchanged call =>
      constructor
      · rw [after]
        exact pristine.stream
      · rw [after]
        exact pristine.input
  | marked mark =>
      constructor
      · rw [after]
        exact pristine.stream
      · rw [after]
        exact pristine.input
  | retrieved len =>
      constructor
      · rw [after]
        exact pristine.stream
      · rw [after]
        simp [pristine.input]

end World

theorem pristine {w : World} (reachable : server.Reachable w) {c : ConnId}
    (unborn : w.created ≤ c) : w.Pristine c := by
  revert unborn
  refine reachable.invariant (I := fun w => w.created ≤ c → w.Pristine c) ?_ ?_
  · rintro w ⟨name, ipPort, callbacks, ioLoops, users, rfl⟩ _
    exact World.construct_pristine rfl
  · intro w a before kept guard unborn
    have earlier : w.created ≤ c := by
      rcases World.next_created w a with same | ⟨_, one⟩
      · exact same ▸ unborn
      · change (w.next a).created ≤ c at unborn
        rw [one] at unborn
        exact Nat.le_of_succ_le unborn
    exact (kept earlier).next (placed before) guard earlier

namespace World

/-! ### What a step does to the output of a connection -/

/-- Everything that a step can make of the output of connection `c`, with the messages that it
executes. -/
inductive WireStep (w : World) (a : Action) (c : ConnId) :
    TcpConnection → List (Caller × List Byte) → Prop where
  | same (after : TcpConnection) (stream : after.stream = (w.conns c).conn.stream) :
      WireStep w a c after []
  | sent (l : LoopId) (kernel : Kernel) (data : List Byte) (caller : Caller)
      (running : a = .run l kernel)
      (current : w.current l = some (.task (.sendInLoop c data caller))) :
      WireStep w a c ((w.conns c).conn.sendInLoop data kernel.write).1 [(caller, data)]
  | written (l : LoopId) (kernel : Kernel) (running : a = .run l kernel)
      (current : w.current l = some (.callback .write c))
      (fits : kernel.write.Fits (w.conns c).conn.outputBuffer.readableBytes) :
      WireStep w a c ((w.conns c).conn.handleWrite kernel.write).1 []

/-- A job that neither sends nor writes leaves the stream alone. -/
theorem perform_stream (w : World) (l : LoopId) (kernel : Kernel) {job : Job}
    (quiet : job.notifies = false) :
    (w.perform l kernel job).conn.stream = (w.conns job.conn).conn.stream := by
  have deed := w.perform_deed l kernel job
  generalize (w.perform l kernel job).conn = after at deed ⊢
  generalize (w.perform l kernel job).events = events at deed
  cases deed with
  | send c data caller => cases quiet
  | write c => cases quiet
  | shutdown c =>
      rw [TcpConnection.shutdownInLoop_eq, TcpConnection.stream]
      dsimp only
      split <;> rfl
  | destroy c =>
      rw [TcpConnection.connectDestroyed]
      split <;> rfl
  | establish c | remove c | other job | close callback c input closing | error c
  | read c input events received | closeCallback c | removeChannel c => rfl

theorem run_wire {w : World} {l : LoopId} {kernel : Kernel} (guard : w.Enabled (.run l kernel))
    (c : ConnId) :
    WireStep w (.run l kernel) c ((w.next (.run l kernel)).conns c).conn
      (executed c w (.run l kernel)) := by
  obtain ⟨job, loop, fetched, current, _, fits⟩ := enabled_run guard
  simp only [executed, current]
  rw [run_conns fetched]
  by_cases about : job.conn = c
  · subst about
    rw [Function.update_self]
    cases job with
    | task functor =>
        cases functor with
        | sendInLoop c' data caller =>
            have mine : (Job.task (.sendInLoop c' data caller)).sendTo c' = [(caller, data)] :=
              congrArg Option.toList (if_pos rfl)
            exact mine ▸ .sent l kernel data caller rfl current
        | connectEstablished c' | connectDestroyed c' | removeConnectionInLoop c'
        | shutdownInLoop c' | writeCompleteCallback c' | highWaterMarkCallback c' total
        | user c' => exact .same _ (w.perform_stream l kernel rfl)
    | callback callback c' =>
        cases callback with
        | write => exact .written l kernel rfl current fits
        | close | error | read => exact .same _ (w.perform_stream l kernel rfl)
    | releaseGuard c' | closeCallback c' | removeChannel c' =>
        exact .same _ (w.perform_stream l kernel rfl)
  · rw [Function.update_of_ne (Ne.symm about), Job.sendTo_other about]
    exact .same _ rfl

end World

/-- The inversion of a step as far as the output of `c` goes. -/
theorem next_wire {w : World} (reachable : server.Reachable w) {a : Action} (guard : w.Enabled a)
    (c : ConnId) : World.WireStep w a c ((w.next a).conns c).conn (World.executed c w a) := by
  by_cases runs : ∃ l kernel, a = .run l kernel
  · obtain ⟨l, kernel, rfl⟩ := runs
    exact World.run_wire guard c
  · have nothing : World.executed c w a = [] := by
      cases a with
      | run l kernel => exact absurd ⟨l, kernel, rfl⟩ runs
      | _ => rfl
    rw [nothing]
    apply World.WireStep.same
    have change := World.next_change guard c
    generalize (w.next a).conns c = tracked at change ⊢
    cases change with
    | same | exchanged call | marked mark | retrieved len => rfl
    | constructed new =>
        rw [(pristine reachable (Nat.le_of_eq new.symm)).stream]
        simp [TcpConnection.stream, TcpConnection.construct, Socket.fresh]
    | performed l kernel job running => exact absurd ⟨l, kernel, running⟩ runs

/-! ### The way out -/

/-- Whatever the kernel answers, messages go through the connection without an invented, repeated
or overtaken byte. -/
def wirePipe (c : ConnId) : Machine.LeakyPipe server Byte where
  held w := (w.conns c).conn.stream
  enters w a := (World.executed c w a).flatMap Prod.snd
  leaves _ _ := []
  step w a reachable guard := by
    have step := next_wire reachable guard c
    change ((w.next a).conns c).conn.stream.Sublist _
    generalize ((w.next a).conns c).conn = after at step ⊢
    generalize World.executed c w a = messages at step ⊢
    cases step with
    | same _ stream =>
        apply Machine.sublist_of_eq
        rw [stream, List.flatMap_nil, List.append_nil]
    | sent l kernel data caller running current =>
        rw [List.flatMap_singleton]
        exact (w.conns c).conn.sendInLoop_stream_sublist data kernel.write
    | written l kernel running current fits =>
        rw [List.flatMap_nil, List.append_nil]
        exact (w.conns c).conn.handleWrite_stream_sublist fits

/-- The write did not fail for good. -/
def WriteResult.Transient : WriteResult → Prop
  | .failed errno => TcpConnection.isBlockingError errno = true
  | .accepted _ => True

/-- The write took nothing or all that was `pending`. -/
def WriteResult.Whole (pending : Nat) : WriteResult → Prop
  | .accepted n => n = 0 ∨ n = pending
  | .failed _ => True

instance : ∀ result : WriteResult, Decidable result.Transient
  | .failed _ => inferInstanceAs (Decidable (_ = true))
  | .accepted _ => inferInstanceAs (Decidable True)

instance (pending : Nat) : ∀ result : WriteResult, Decidable (result.Whole pending)
  | .accepted _ => inferInstanceAs (Decidable (_ ∨ _))
  | .failed _ => inferInstanceAs (Decidable True)

/-- A send to `c` does not fail for good, and a write event of `c` takes nothing or everything. -/
def KeepsStream (c : ConnId) (w : World) (kernel : Kernel) : Job → Prop
  | .task (.sendInLoop c' _ _) => c' = c → kernel.write.Transient
  | .callback .write c' =>
      c' = c → kernel.write.Whole (w.conns c').conn.outputBuffer.readableBytes
  | _ => True

instance (c : ConnId) (w : World) (kernel : Kernel) :
    ∀ job, Decidable (KeepsStream c w kernel job)
  | .task (.sendInLoop c' _ _) => inferInstanceAs (Decidable (c' = c → _))
  | .callback .write c' => inferInstanceAs (Decidable (c' = c → _))
  | .task (.connectEstablished _) | .task (.connectDestroyed _)
  | .task (.removeConnectionInLoop _) | .task (.shutdownInLoop _)
  | .task (.writeCompleteCallback _) | .task (.highWaterMarkCallback _ _) | .task (.user _)
  | .callback .close _ | .callback .error _ | .callback .read _ | .releaseGuard _
  | .closeCallback _ | .removeChannel _ => inferInstanceAs (Decidable True)

/-- Under this condition the way out is a pipe. -/
def wholePipe (c : ConnId) :
    Machine.Pipe (server.restrict (World.OnJobs (KeepsStream c))) Byte where
  held w := (w.conns c).conn.stream
  enters w a := (World.executed c w a).flatMap Prod.snd
  leaves _ _ := []
  step w a reachable guard := by
    have step := next_wire reachable.of_restrict guard.1 c
    have keeps := guard.2
    change [] ++ ((w.next a).conns c).conn.stream = _
    rw [List.nil_append]
    generalize ((w.next a).conns c).conn = after at step ⊢
    generalize World.executed c w a = messages at step ⊢
    cases step with
    | same _ stream => rw [stream, List.flatMap_nil, List.append_nil]
    | sent l kernel data caller running current =>
        subst running
        rw [List.flatMap_singleton]
        apply TcpConnection.sendInLoop_stream
        intro errno answer
        have transient : kernel.write.Transient := keeps _ current rfl
        rwa [answer] at transient
    | written l kernel running current fits =>
        subst running
        rw [List.flatMap_nil, List.append_nil, TcpConnection.handleWrite_stream_iff _ fits]
        intro _ n answer
        have whole : kernel.write.Whole _ := keeps _ current rfl
        rwa [answer] at whole

theorem stream_initial {start : World} (initial : server.initial start) (c : ConnId) :
    (start.conns c).conn.stream = [] := by
  refine (pristine (.start initial) ?_).stream
  obtain ⟨name, ipPort, callbacks, ioLoops, users, rfl⟩ := initial
  exact Nat.zero_le c

/-- The bytes of the messages that a run executes. -/
theorem outputs_bytes (start : World) (schedule : List Action) (c : ConnId) :
    server.outputs (fun w a => (World.executed c w a).flatMap Prod.snd) start schedule =
      (server.outputs (World.executed c) start schedule).flatMap Prod.snd :=
  Machine.outputs_hom (List.flatMap Prod.snd) rfl (fun _ _ => List.flatMap_append) _ _ _

theorem outputs_nothing (start : World) (schedule : List Action) :
    server.outputs (fun _ _ => ([] : List Byte)) start schedule = [] := by
  induction schedule generalizing start with
  | nil => rfl
  | cons a rest inductionHypothesis => exact inductionHypothesis (server.next start a)

/-- Whatever the kernel answers and in whatever order threads run, what a connection has given to
the kernel and still buffers comes from whole sequences of accepted messages, each sender's in its
order: bytes can be missing, but none is invented, repeated or overtaken. -/
theorem output_made_of_messages (start : World) (initial : server.initial start)
    (schedule : List Action) (admitted : server.Admits start schedule) (c : ConnId) :
    ∃ messages : List (Caller × List Byte),
      (((server.exec start schedule).conns c).conn.socket.accepted ++
        ((server.exec start schedule).conns c).conn.outputBuffer.contents).Sublist
          (messages.flatMap Prod.snd) ∧
      ∀ T, messagesOf T messages ++ World.inFlight T c (server.exec start schedule) =
        server.outputs (World.sent T c) start schedule := by
  refine ⟨server.outputs (World.executed c) start schedule, ?_,
    messages_executed_in_order initial admitted c⟩
  have law := (wirePipe c).run (.start initial) admitted
  have empty : (wirePipe c).held start = [] := stream_initial initial c
  rw [empty, List.nil_append] at law
  exact outputs_bytes start schedule c ▸ (List.sublist_append_right _ _).trans law

/-- As long as write events take nothing or everything and no send fails for good, nothing is
missing: the output of a connection is an interleaving of whole messages, and of each sender
exactly the accepted ones that are no longer in flight, in their order. -/
theorem output_interleaves_senders (start : World) (initial : server.initial start)
    (schedule : List Action) (c : ConnId)
    (admitted : (server.restrict (World.OnJobs (KeepsStream c))).Admits start schedule) :
    ∃ messages : List (Caller × List Byte),
      ((server.exec start schedule).conns c).conn.socket.accepted ++
        ((server.exec start schedule).conns c).conn.outputBuffer.contents =
          messages.flatMap Prod.snd ∧
      ∀ T, messagesOf T messages ++ World.inFlight T c (server.exec start schedule) =
        server.outputs (World.sent T c) start schedule := by
  refine ⟨server.outputs (World.executed c) start schedule, ?_,
    messages_executed_in_order initial admitted.of_restrict c⟩
  have law := (wholePipe c).run_of_empty (.start initial) admitted (stream_initial initial c)
  rw [Machine.restrict_exec, Machine.restrict_outputs, Machine.restrict_outputs] at law
  calc ((server.exec start schedule).conns c).conn.stream
      = server.outputs (fun _ _ => []) start schedule ++
          ((server.exec start schedule).conns c).conn.stream := by
        rw [outputs_nothing, List.nil_append]
    _ = (server.outputs (World.executed c) start schedule).flatMap Prod.snd :=
        law.trans (outputs_bytes start schedule c)

/-- A thread of the user sends two messages; the kernel takes one byte of the first, and the second
is still in the thread's hands. -/
def demoSends : List Action :=
  demoOpening ++ [.send 0 0 [1, 2], .queueInLoop 0, .poll 1 [], .doPendingFunctors 1,
    .run 1 demoKernel, .send 0 0 [3]]

/-- The law of the way out at this run. -/
theorem output_made_of_messages_demoSends :
    ∃ messages : List (Caller × List Byte),
      (((server.exec (demoServer 1 1) demoSends).conns 0).conn.socket.accepted ++
        ((server.exec (demoServer 1 1) demoSends).conns 0).conn.outputBuffer.contents).Sublist
          (messages.flatMap Prod.snd) ∧
      ∀ T, messagesOf T messages ++ World.inFlight T 0 (server.exec (demoServer 1 1) demoSends) =
        server.outputs (World.sent T 0) (demoServer 1 1) demoSends :=
  output_made_of_messages (demoServer 1 1) (demoServer_initial 1 1) demoSends (by decide +kernel) 0

/-- The law without loss at this run. -/
theorem output_interleaves_senders_demoSends :
    ∃ messages : List (Caller × List Byte),
      ((server.exec (demoServer 1 1) demoSends).conns 0).conn.socket.accepted ++
        ((server.exec (demoServer 1 1) demoSends).conns 0).conn.outputBuffer.contents =
          messages.flatMap Prod.snd ∧
      ∀ T, messagesOf T messages ++ World.inFlight T 0 (server.exec (demoServer 1 1) demoSends) =
        server.outputs (World.sent T 0) (demoServer 1 1) demoSends :=
  output_interleaves_senders (demoServer 1 1) (demoServer_initial 1 1) demoSends 0
    (by decide +kernel)

example :
    World.inFlight (.thread 0) 0 (server.exec (demoServer 1 1) demoSends) = [[3]] ∧
      ((server.exec (demoServer 1 1) demoSends).conns 0).conn.socket.accepted = [1] := by
  decide +kernel

/-! ### The way in -/

/-- The bytes that a read has brought. -/
def ReadResult.bytes : ReadResult → List Byte
  | .data bytes => bytes
  | .failed _ => []

/-- Exactly the bytes that a read has brought are put behind those of the buffer. -/
theorem SafeBuffer.readFd_contents (b : SafeBuffer) {result : ReadResult}
    (fits : result.Fits b.raw.readRoom) :
    (b.readFd result).contents = b.contents ++ result.bytes := by
  obtain ⟨raw, returned, _, contents⟩ := Buffer.readFd_spec b.wellFormed fits
  obtain ⟨outcome, same⟩ := b.readFd_raw fits
  cases result with
  | data bytes =>
      rw [returned] at same
      cases same
      exact contents
  | failed errno =>
      rw [returned] at same
      cases same
      exact contents.trans (List.append_nil _).symm

/-- The bytes that a job of connection `c` reads. -/
def Job.received (c : ConnId) (kernel : Kernel) : Job → List Byte
  | .callback .read c' => if c' = c then kernel.read.bytes else []
  | _ => []

theorem Job.received_other {job : Job} {c : ConnId} (other : job.conn ≠ c) (kernel : Kernel) :
    job.received c kernel = [] := by
  cases job with
  | callback callback c' =>
      cases callback with
      | read => exact if_neg other
      | close | error | write => rfl
  | task functor | releaseGuard c' | closeCallback c' | removeChannel c' => rfl

namespace World

/-- The bytes that an action reads from the descriptor of connection `c`. -/
def received (c : ConnId) (w : World) : Action → List Byte
  | .run l kernel =>
      match w.current l with
      | some job => job.received c kernel
      | none => []
  | _ => []

/-- The bytes that user code retrieves from the input buffer of connection `c`. -/
def retrieved (c : ConnId) (w : World) : Action → List Byte
  | .userRetrieve _ c' len =>
      if c' = c then (w.conns c').conn.inputBuffer.contents.take len else []
  | _ => []

/-- A job puts what it reads behind the bytes of its connection's input buffer. -/
theorem perform_input (w : World) (l : LoopId) {kernel : Kernel} {job : Job}
    (fits : w.KernelFits kernel job) :
    (w.perform l kernel job).conn.inputBuffer.contents =
      (w.conns job.conn).conn.inputBuffer.contents ++ job.received job.conn kernel := by
  have unread : job.received job.conn kernel = [] →
      (w.perform l kernel job).conn.inputBuffer = (w.conns job.conn).conn.inputBuffer →
      (w.perform l kernel job).conn.inputBuffer.contents =
        (w.conns job.conn).conn.inputBuffer.contents ++ job.received job.conn kernel := by
    intro nothing same
    rw [nothing, same, List.append_nil]
  cases job with
  | task functor =>
      refine unread rfl ?_
      cases functor with
      | sendInLoop c data caller =>
          change ((w.conns c).conn.sendInLoop data kernel.write).1.inputBuffer = _
          rw [TcpConnection.sendInLoop_frame]
          rfl
      | shutdownInLoop c =>
          change ((w.conns c).conn.shutdownInLoop).inputBuffer = _
          rw [TcpConnection.shutdownInLoop_eq]
          rfl
      | connectDestroyed c =>
          change ((w.conns c).conn.connectDestroyed).1.inputBuffer = _
          rw [TcpConnection.connectDestroyed]
          split <;> rfl
      | removeConnectionInLoop c =>
          change (w.removeConnectionInLoop c).conn.inputBuffer = _
          rw [removeConnectionInLoop]
          split <;> rfl
      | connectEstablished c | writeCompleteCallback c | highWaterMarkCallback c total
      | user c => rfl
  | callback callback c =>
      cases callback with
      | read =>
          have read : (w.perform l kernel (.callback .read c)).conn.inputBuffer =
              (w.conns c).conn.inputBuffer.readFd kernel.read := by
            simp only [perform, runCallback, handleRead, TcpConnection.handleRead_fst]
            split
            · split <;> rfl
            · rfl
            · rfl
          rw [read, SafeBuffer.readFd_contents _ fits]
          exact congrArg _ (if_pos rfl).symm
      | write =>
          refine unread rfl ?_
          change ((w.conns c).conn.handleWrite kernel.write).1.inputBuffer = _
          rw [TcpConnection.handleWrite_frame _ fits]
          rfl
      | close | error => exact unread rfl rfl
  | closeCallback c =>
      refine unread rfl ?_
      change (w.closeCallback l c).conn.inputBuffer = _
      rw [closeCallback]
      split <;> rfl
  | releaseGuard c | removeChannel c => exact unread rfl rfl

/-- Setting the value of a connection with the same input buffer. -/
theorem input_setConn (w : World) (c' : ConnId) (conn : TcpConnection)
    (same : conn.inputBuffer = (w.conns c').conn.inputBuffer) (c : ConnId) :
    ((w.setConn c' conn []).conns c).conn.inputBuffer = (w.conns c).conn.inputBuffer := by
  rw [setConn_conns, Function.update_apply]
  split
  · rename_i here
    rw [here]
    exact same
  · rfl

end World

/-- An accepted connection begins with an empty buffer, and the others keep theirs. -/
theorem input_newConnection {w w' : World} (reachable : server.Reachable w)
    (conns : w'.conns = w.conns) (created : w'.created = w.created) (l : LoopId) (named : Bool)
    (c : ConnId) :
    ((w'.newConnection l named).conns c).conn.inputBuffer.contents =
      (w.conns c).conn.inputBuffer.contents := by
  by_cases new : c = w'.created
  · have empty := (pristine reachable (c := c) (Nat.le_of_eq (created ▸ new.symm))).input
    cases named with
    | false => exact conns ▸ rfl
    | true =>
        rw [empty, new, World.newConnection_new]
        exact SafeBuffer.construct_contents
  · rw [World.newConnection_other _ _ _ new, conns]

/-- What a step does to the input buffer of `c`: bytes that are read come behind the others, and
bytes that are retrieved leave in front. -/
theorem next_input {w : World} (reachable : server.Reachable w) {a : Action} (guard : w.Enabled a)
    (c : ConnId) :
    World.retrieved c w a ++ ((w.next a).conns c).conn.inputBuffer.contents =
      (w.conns c).conn.inputBuffer.contents ++ World.received c w a := by
  have untouched : World.retrieved c w a = [] → World.received c w a = [] →
      ((w.next a).conns c).conn.inputBuffer.contents = (w.conns c).conn.inputBuffer.contents →
      World.retrieved c w a ++ ((w.next a).conns c).conn.inputBuffer.contents =
        (w.conns c).conn.inputBuffer.contents ++ World.received c w a := by
    intro kept unread same
    rw [kept, unread, same, List.append_nil, List.nil_append]
  cases a with
  | run l kernel =>
      obtain ⟨job, loop, fetched, current, _, fits⟩ := World.enabled_run guard
      change [] ++ _ = _
      simp only [World.received, current]
      rw [List.nil_append, World.run_conns fetched]
      by_cases about : job.conn = c
      · subst about
        rw [Function.update_self]
        exact w.perform_input l fits
      · rw [Function.update_of_ne (Ne.symm about), Job.received_other about, List.append_nil]
  | userRetrieve l c' len =>
      change (if c' = c then _ else []) ++ _ = (w.conns c).conn.inputBuffer.contents ++ []
      rw [List.append_nil, World.next, World.setConn_conns, Function.update_apply]
      by_cases about : c' = c
      · subst about
        rw [if_pos rfl, if_pos rfl, SafeBuffer.retrieve_contents, List.take_append_drop]
      · rw [if_neg about, if_neg (Ne.symm about), List.nil_append]
  | handleEvent l named =>
      refine untouched rfl rfl ?_
      rw [World.next]
      split
      · rfl
      · rename_i active rest _
        cases active with
        | channel c' revents => rfl
        | acceptor =>
            rw [World.handleEvent]
            split
            · rfl
            · refine input_newConnection reachable ?_ ?_ l named c <;> rfl
  | userShutdown l c' =>
      refine untouched rfl rfl ?_
      have same := w.input_setConn c' (w.conns c').conn.exchangeDisconnecting.1 rfl c
      simp only [World.next]
      split <;> exact congrArg SafeBuffer.contents same
  | shutdown t c' =>
      refine untouched rfl rfl ?_
      have same := w.input_setConn c' (w.conns c').conn.exchangeDisconnecting.1 rfl c
      simp only [World.next]
      split <;> exact congrArg SafeBuffer.contents same
  | userSetHighWaterMarkCallback l c' mark =>
      have same := w.input_setConn c' ((w.conns c').conn.setHighWaterMarkCallback mark) rfl c
      exact untouched rfl rfl (congrArg SafeBuffer.contents same)
  | destroyConnection c' =>
      refine untouched rfl rfl ?_
      simp only [World.next, World.runInLoop_conns]
      rfl
  | destroyMember =>
      refine untouched rfl rfl ?_
      rw [World.next, World.destroyMember]
      split <;> rfl
  | userSend l c' data | send t c' data | submit l | queueInLoop t =>
      refine untouched rfl rfl ?_
      rw [World.next]
      split <;> rfl
  | enterLoop l | poll l active | doPendingFunctors l | endBatch l | destroyLoop l | userTake l t c'
  | userGive l t c' | userReturn l | copy t other c' | drop t c' | queueUser t c' | quit l
  | destroyServer =>
      exact untouched rfl rfl rfl

/-- From the read of a byte to its retrieval by user code. -/
def inputPipe (c : ConnId) : Machine.Pipe server Byte where
  held w := (w.conns c).conn.inputBuffer.contents
  enters := World.received c
  leaves := World.retrieved c
  step _ _ reachable guard := next_input reachable guard c

/-- Over every interleaving, what user code has retrieved from a connection followed by what is in
its input buffer is what has been read from its descriptor, byte for byte. -/
theorem input_conserved (start : World) (initial : server.initial start)
    (schedule : List Action) (admitted : server.Admits start schedule) (c : ConnId) :
    server.outputs (World.retrieved c) start schedule ++
        ((server.exec start schedule).conns c).conn.inputBuffer.contents =
      server.outputs (World.received c) start schedule := by
  have unborn : start.created ≤ c := by
    obtain ⟨name, ipPort, callbacks, ioLoops, users, rfl⟩ := initial
    exact Nat.zero_le c
  exact (inputPipe c).run_of_empty (.start initial) admitted
    (pristine (.start initial) unborn).input

/-- Connection 0 is readable, and its event is handled. -/
def demoReadable : List Action :=
  demoOpening ++ [.poll 1 [.channel 0 EPOLLIN], .handleEvent 1 true]

/-- The read brings three bytes, and user code retrieves one of them. -/
def demoRetrieval : List Action :=
  demoReadable ++ [.run 1 ⟨.data [7, 8, 9], .accepted 1⟩, .userRetrieve 1 0 1]

/-- Whatever a buffer holds, it has room for the three bytes. -/
theorem demoRetrieval_admitted : server.Admits (demoServer 1 1) demoRetrieval := by
  have opened : server.Admits (demoServer 1 1) demoReadable := by decide +kernel
  have fits : ∀ buffer : SafeBuffer, (ReadResult.data [7, 8, 9]).Fits buffer.raw.readRoom :=
    fun buffer => Nat.le_trans (by decide) buffer.kExtraBufSize_le_readRoom
  apply Machine.admits_append.mpr
  constructor
  · exact opened
  · constructor
    · exact ⟨by decide, .callback .read 0, by decide +kernel, trivial, fits _⟩
    · decide +kernel

/-- The law of the way in at this run. -/
theorem input_conserved_demoRetrieval :
    server.outputs (World.retrieved 0) (demoServer 1 1) demoRetrieval ++
        ((server.exec (demoServer 1 1) demoRetrieval).conns 0).conn.inputBuffer.contents =
      server.outputs (World.received 0) (demoServer 1 1) demoRetrieval :=
  input_conserved (demoServer 1 1) (demoServer_initial 1 1) demoRetrieval demoRetrieval_admitted 0

end EduMuduo

/-
Module: EduMuduo.Proofs.AcceptErrors
Layer: Proofs
Purpose: What readiness events do to a listening acceptor.  An accepted descriptor is handed on or
  closed, and the acceptor keeps listening; a failed `accept4` ends the process whatever its errno,
  since both branches of `handleAcceptError` begin with `LOG_FATAL`.  So a sequence of events is
  survived exactly when none of its accepts fails.
Imports: EduMuduo.Core.Acceptor
Trusted boundary: none (fully proved)
Main exports: Acceptor.Listening, Acceptor.Served, Acceptor.handleAcceptError_exits,
  Acceptor.handleRead_served_iff, accept_failures_survived_iff
-/
import EduMuduo.Core.Acceptor

namespace EduMuduo

open Library

namespace Acceptor

variable {Address Server : Type}

/-- Listening, with the channel registered for reading. -/
structure Listening (self : Acceptor Address Server) : Prop where
  listenning : self.listenning = true
  registered : self.acceptChannel.registered = true
  reading : self.acceptChannel.channel.isReading = true

/-- An event after which the process runs: the acceptor listens, a failed accept has left the
server and all descriptors alone, and an accepted descriptor has been handed to the callback or, if
there is none, closed. -/
structure Served (before : Acceptor Address Server) (result : AcceptResult Address)
    (after : Acceptor Address Server) : Prop where
  listening : after.Listening
  failed : ∀ errno, result = .failed errno →
    after.server = before.server ∧ after.handed = before.handed ∧ after.closed = before.closed
  handed : ∀ connfd peerAddr callback, result = .accepted connfd peerAddr →
    before.newConnectionCallback = some callback →
      after.server = callback connfd peerAddr before.server ∧
        after.handed = before.handed ++ [connfd] ∧ after.closed = before.closed
  closed : ∀ connfd peerAddr, result = .accepted connfd peerAddr →
    before.newConnectionCallback = none →
      after.server = before.server ∧ after.handed = before.handed ∧
        after.closed = before.closed ++ [connfd]

/-- After every event of the sequence the process runs and the event has been served. -/
def Survives (self : Acceptor Address Server) (results : List (AcceptResult Address)) : Prop :=
  ∀ front result rest, results = front ++ result :: rest →
    ∃ before after, self.run front = some before ∧ before.handleRead result = some after ∧
      before.Served result after

/-- `listen` on a constructed acceptor. -/
theorem listen_listening {server : Server} {cb : Option (Fd → Address → Server → Server)}
    {acceptor : Acceptor Address Server}
    (listens : ((construct server).setNewConnectionCallback cb).listen true = some acceptor) :
    acceptor.Listening := by
  cases listens
  constructor
  · rfl
  · exact (PolledChannel.registered_iff _).mpr (PolledChannel.enableReading_index _)
  · change Channel.isReading ((PolledChannel.construct ()).change .enableReading).channel = true
    rw [PolledChannel.change_channel]
    decide

/-- Whatever the errno is, the process ends. -/
theorem handleAcceptError_exits (self : Acceptor Address Server) (err : Errno) :
    self.handleAcceptError err = none := by
  rw [handleAcceptError]
  split <;> rfl

theorem handleRead_handed {self : Acceptor Address Server}
    {callback : Fd → Address → Server → Server}
    (installed : self.newConnectionCallback = some callback) (connfd : Fd) (peerAddr : Address) :
    self.handleRead (.accepted connfd peerAddr) = some { self with
      server := callback connfd peerAddr self.server
      handed := self.handed ++ [connfd] } := by
  rw [handleRead]
  split
  · rename_i other same
    cases installed.symm.trans same
    rfl
  · rename_i unset
    cases installed.symm.trans unset

theorem handleRead_closed {self : Acceptor Address Server}
    (unset : self.newConnectionCallback = none) (connfd : Fd) (peerAddr : Address) :
    self.handleRead (.accepted connfd peerAddr) =
      some { self with closed := self.closed ++ [connfd] } := by
  rw [handleRead]
  split
  · rename_i other same
    cases unset.symm.trans same
  · rfl

/-- The step lemma: a listening acceptor serves an event exactly when the accept succeeds. -/
theorem handleRead_served_iff {self : Acceptor Address Server} (listening : self.Listening)
    (result : AcceptResult Address) :
    (∃ after, self.handleRead result = some after ∧ self.Served result after) ↔
      result.succeeded = true := by
  obtain ⟨listenning, registered, reading⟩ := listening
  cases result with
  | failed errno =>
      apply iff_of_false
      · rintro ⟨after, handled, -⟩
        rw [handleRead, handleAcceptError_exits] at handled
        cases handled
      · exact Bool.false_ne_true
  | accepted connfd peerAddr =>
      refine iff_of_true ?_ rfl
      cases installed : self.newConnectionCallback with
      | some callback =>
          refine ⟨_, handleRead_handed installed connfd peerAddr, ?_⟩
          constructor
          · exact ⟨listenning, registered, reading⟩
          · intro errno same
            cases same
          · intro fd addr other same set
            cases same
            cases installed.symm.trans set
            exact ⟨rfl, rfl, rfl⟩
          · intro fd addr _ unset
            cases installed.symm.trans unset
      | none =>
          refine ⟨_, handleRead_closed installed connfd peerAddr, ?_⟩
          constructor
          · exact ⟨listenning, registered, reading⟩
          · intro errno same
            cases same
          · intro fd addr callback _ set
            cases installed.symm.trans set
          · intro fd addr same _
            cases same
            exact ⟨rfl, rfl, rfl⟩

/-- The run lemma: a listening acceptor survives the events exactly when every accept succeeds. -/
theorem survives_iff {self : Acceptor Address Server} (listening : self.Listening)
    (results : List (AcceptResult Address)) :
    self.Survives results ↔ ∀ result ∈ results, result.succeeded = true := by
  induction results generalizing self with
  | nil =>
      apply iff_of_true
      · intro front result rest split
        simp at split
      · exact fun _ member => absurd member List.not_mem_nil
  | cons first rest inductionHypothesis =>
      rw [List.forall_mem_cons]
      constructor
      · intro survives
        obtain ⟨before, after, here, handled, served⟩ := survives [] first rest rfl
        cases here
        have succeeded := (handleRead_served_iff listening first).mp ⟨after, handled, served⟩
        refine ⟨succeeded, (inductionHypothesis served.listening).mp ?_⟩
        intro front result later split
        obtain ⟨before, next, reached, rest⟩ :=
          (forall_positions_cons.mp survives).2 front result later split
        rw [run, handled] at reached
        exact ⟨before, next, reached, rest⟩
      · rintro ⟨succeeded, others⟩
        obtain ⟨after, handled, served⟩ := (handleRead_served_iff listening first).mpr succeeded
        rw [Survives, forall_positions_cons]
        constructor
        · exact ⟨self, after, rfl, handled, served⟩
        · intro front result later split
          rw [run, handled]
          exact (inductionHypothesis served.listening).mpr others front result later split

end Acceptor

/-- A constructed acceptor that listens, with or without a callback and whatever the callback does
to the server, survives a sequence of readiness events if and only if no `accept4` among them
fails. -/
theorem accept_failures_survived_iff {Address Server : Type} (server : Server)
    (cb : Option (Fd → Address → Server → Server)) {acceptor : Acceptor Address Server}
    (listens :
      ((Acceptor.construct server).setNewConnectionCallback cb).listen true = some acceptor)
    (results : List (AcceptResult Address)) :
    acceptor.Survives results ↔ ∀ result ∈ results, result.succeeded = true :=
  Acceptor.survives_iff (Acceptor.listen_listening listens) results

/-- The acceptor of a server with one io loop, which listens. -/
def demoAcceptor : Acceptor Bool World :=
  { (Acceptor.construct (demoServer 1 0)).setNewConnectionCallback
      (some TcpServer.newConnectionCallback) with
    listenning := true
    acceptChannel := (PolledChannel.construct ()).change .enableReading }

theorem demoAcceptor_listens :
    ((Acceptor.construct (demoServer 1 0)).setNewConnectionCallback
      (some TcpServer.newConnectionCallback)).listen true = some demoAcceptor := rfl

/-- Two accepted sockets, of which one has no local name. -/
theorem accept_failures_survived_demo :
    demoAcceptor.Survives [.accepted 9 true, .accepted 10 false] :=
  (accept_failures_survived_iff _ _ demoAcceptor_listens _).mpr (by decide)

/-- A readiness event whose connection is already gone ends the process. -/
theorem accept_failure_exits :
    demoAcceptor.run [.accepted 9 true, .failed EAGAIN] = none ∧
      ¬ demoAcceptor.Survives [.accepted 9 true, .failed EAGAIN] := by
  constructor
  · rfl
  · rw [Acceptor.survives_iff (Acceptor.listen_listening demoAcceptor_listens)]
    decide

end EduMuduo

/-
Module: EduMuduo.Proofs.OutputStream
Layer: Proofs
Purpose: What becomes of the bytes handed to a connection.  The stream is what the kernel has
  accepted followed by what is still in the output buffer.  `sendInLoop` keeps it equal to the
  messages sent, however a message is split between the direct write and the buffer.  `handleWrite`
  does not: `writeFd` moves the read index past the written bytes and `retrieve` moves it a second
  time, so after a partial write the following bytes are dropped.  A write event is harmless
  exactly when the kernel takes nothing or everything.
Imports: EduMuduo.Core.Session, EduMuduo.Proofs.ConnectionOperations
Trusted boundary: none
Main exports: Session.Intact, WholeWrite, Session.next_intact_iff, output_stream_intact_iff
-/
import EduMuduo.Core.Session
import EduMuduo.Proofs.ConnectionOperations

namespace EduMuduo

open Library

namespace TcpConnection

/-- Accepted bytes followed by pending bytes. -/
def stream (self : TcpConnection) : List Byte :=
  self.socket.accepted ++ self.outputBuffer.contents

/-- `sendInLoop` puts the whole message behind the stream unless it discards it after a failed
write. -/
theorem sendInLoop_stream (self : TcpConnection) {data : List Byte} {result : WriteResult}
    (transient : ∀ errno, result = .failed errno → isBlockingError errno = true) :
    (self.sendInLoop data result).1.stream = self.stream ++ data := by
  cases self.sendInLoop_effect data result with
  | written idle drained n whole answer same =>
      simp [same, stream, Socket.write, drained]
  | discarded idle drained errno answer dropped same =>
      have none : data = [] := by simpa [transient errno answer] using dropped
      rw [same, none]
      simp [stream, Socket.write]
  | split idle drained n short answer same =>
      simp [same, stream, Socket.write, drained]
  | buffered pending some same => simp [same, stream]
  | nothing pending none same => rw [same, none, List.append_nil]

/-- What the condition on a write event comes to once its answer is known. -/
theorem wholeWrite_iff (self : TcpConnection) {result : WriteResult} {n : Nat}
    (writing : self.channel.isWriting = true) (answer : result = .accepted n) :
    n = 0 ∨ n = self.outputBuffer.readableBytes ↔
      (self.channel.isWriting = true → ∀ n, result = .accepted n →
        n = 0 ∨ n = self.outputBuffer.readableBytes) := by
  subst answer
  refine ⟨fun whole _ m same => ?_, fun whole => whole writing n rfl⟩
  cases same
  exact whole

/-- `handleWrite` keeps the stream exactly when the kernel takes nothing or everything. -/
theorem handleWrite_stream_iff (self : TcpConnection) {result : WriteResult}
    (fits : result.Fits self.outputBuffer.readableBytes) :
    (self.handleWrite result).1.stream = self.stream ↔
      (self.channel.isWriting = true → ∀ n, result = .accepted n →
        n = 0 ∨ n = self.outputBuffer.readableBytes) := by
  -- the bytes that survive a write of `n` are those behind the first `2 * n`
  have survive : ∀ n, result = .accepted n →
      (self.outputBuffer.contents.take n ++ (self.outputBuffer.contents.drop n).drop n =
          self.outputBuffer.contents ↔ n = 0 ∨ n = self.outputBuffer.readableBytes) := by
    rintro n rfl
    have bound : n ≤ self.outputBuffer.contents.length :=
      self.outputBuffer.length_contents ▸ fits
    rw [← self.outputBuffer.length_contents]
    constructor
    · intro kept
      have lengths := congrArg List.length kept
      simp only [List.length_append, List.length_take, List.length_drop] at lengths
      omega
    · rintro (rfl | rfl) <;> simp
  cases self.handleWrite_effect fits with
  | idle idle same => simp [same, idle]
  | failed writing errno answer same =>
      refine iff_of_true (by simp [same, stream, Socket.write]) fun _ n accepted => ?_
      rw [answer] at accepted
      cases accepted
  | kept writing n answer buffer contents pending same =>
      have after : (self.handleWrite result).1.stream = self.socket.accepted ++
          (self.outputBuffer.contents.take n ++ (self.outputBuffer.contents.drop n).drop n) := by
        rw [same, stream, contents, Socket.write, List.append_assoc]
      rw [after, stream, List.append_cancel_left_eq, survive n answer]
      exact wholeWrite_iff self writing answer
  | drained writing n answer some buffer contents empty same =>
      have accepted : (self.handleWrite result).1.socket.accepted =
          self.socket.accepted ++ self.outputBuffer.contents.take n := by
        rw [same]
        dsimp only
        split <;> rfl
      have left : (self.handleWrite result).1.outputBuffer.contents = [] := by rw [same, empty]
      have after : (self.handleWrite result).1.stream = self.socket.accepted ++
          (self.outputBuffer.contents.take n ++ (self.outputBuffer.contents.drop n).drop n) := by
        rw [stream, accepted, left, contents, List.append_nil, List.append_nil]
      rw [after, stream, List.append_cancel_left_eq, survive n answer]
      exact wholeWrite_iff self writing answer

end TcpConnection

/-- The stream is what was sent: no byte lost, duplicated or reordered. -/
def Session.Intact (s : Session) : Prop :=
  s.conn.socket.accepted ++ s.conn.outputBuffer.contents = s.sent

instance (s : Session) : Decidable s.Intact := inferInstanceAs (Decidable (_ = _))

/-- Writes fail only because they would block. -/
def WouldBlockOnly (_ : Session) : SessionEvent → Prop
  | .sendInLoop _ (.failed errno) => TcpConnection.isBlockingError errno = true
  | .handleWrite (.failed errno) => TcpConnection.isBlockingError errno = true
  | _ => True

instance (s : Session) : ∀ event, Decidable (WouldBlockOnly s event)
  | .sendInLoop _ (.failed _) => inferInstanceAs (Decidable (_ = true))
  | .handleWrite (.failed _) => inferInstanceAs (Decidable (_ = true))
  | .sendInLoop _ (.accepted _) | .handleWrite (.accepted _) | .handleRead _ | .shutdown
  | .shutdownInLoop => inferInstanceAs (Decidable True)

/-- A write event on a channel with write interest takes nothing or everything that is pending. -/
def WholeWrite (s : Session) : SessionEvent → Prop
  | .handleWrite (.accepted n) =>
      s.conn.channel.isWriting = true → n = 0 ∨ n = s.conn.outputBuffer.readableBytes
  | _ => True

theorem Session.established_intact (pointer : ConnId) (loop : LoopId) (name : String)
    (callbacks : Callbacks) (mark : Option Nat) :
    (established pointer loop name callbacks mark).Intact := by
  cases mark <;>
    simp [Intact, established, TcpConnection.connectEstablished, TcpConnection.construct,
      TcpConnection.setHighWaterMarkCallback, Socket.fresh]

/-- The step lemma: an event keeps the stream intact exactly when it is not a partial write. -/
theorem Session.next_intact_iff {s : Session} (intact : s.Intact) {event : SessionEvent}
    (enabled : s.Enabled event) (transient : WouldBlockOnly s event) :
    (s.next event).Intact ↔ WholeWrite s event := by
  cases event with
  | sendInLoop data result =>
      refine iff_of_true ?_ trivial
      refine (s.conn.sendInLoop_stream fun errno answer => ?_).trans (congrArg (· ++ data) intact)
      rw [answer] at transient
      exact transient
  | handleWrite result =>
      have same := s.conn.handleWrite_stream_iff enabled
      rw [TcpConnection.stream, TcpConnection.stream, intact] at same
      refine same.trans ?_
      cases result <;> simp [WholeWrite]
  | handleRead result =>
      refine iff_of_true ?_ trivial
      rw [next, Intact, TcpConnection.handleRead_fst]
      exact intact
  | shutdown => exact iff_of_true intact trivial
  | shutdownInLoop =>
      refine iff_of_true ?_ trivial
      rw [next, Intact, TcpConnection.shutdownInLoop_eq]
      split <;> exact intact

/-- Output stream integrity holds throughout a run exactly when no write event of the run is
partial. -/
theorem output_stream_intact_iff (s : Session) (initial : session.initial s)
    (schedule : List SessionEvent)
    (admitted : (session.restrict WouldBlockOnly).Admits s schedule) :
    (∀ front rest, schedule = front ++ rest → (session.exec s front).Intact) ↔
      ∀ front event rest, schedule = front ++ event :: rest →
        WholeWrite (session.exec s front) event := by
  have start : s.Intact := by
    obtain ⟨pointer, loop, name, callbacks, mark, rfl⟩ := initial
    exact Session.established_intact pointer loop name callbacks mark
  have step : ∀ s event, s.Intact → (session.restrict WouldBlockOnly).enabled s event →
      (Session.Intact ((session.restrict WouldBlockOnly).next s event) ↔ WholeWrite s event) :=
    fun s event intact guard => Session.next_intact_iff intact guard.1 guard.2
  have exact := Machine.throughout_iff step start admitted
  simpa only [Machine.restrict_exec] using exact

/-- A connection of the server for the runs below. -/
def demoSession : Session :=
  .established 0 1 "EchoServer01-0.0.0.0:8002#1" ⟨true, true, false⟩ none

/-- The characterisation at a run with a split message and a complete drain. -/
theorem output_stream_intact_iff_drain :
    (∀ front rest,
        [.sendInLoop [1, 2, 3] (.accepted 1), .handleWrite (.accepted 2)] = front ++ rest →
        (session.exec demoSession front).Intact) ↔
      ∀ front event rest,
        [.sendInLoop [1, 2, 3] (.accepted 1), .handleWrite (.accepted 2)] =
          front ++ event :: rest →
        WholeWrite (session.exec demoSession front) event :=
  output_stream_intact_iff demoSession ⟨_, _, _, _, _, rfl⟩ _ (by decide +kernel)

/-- Four bytes wait in the buffer and the kernel takes one of them: the second byte is gone. -/
theorem partial_write_loses_bytes :
    session.initial demoSession ∧
      (session.restrict WouldBlockOnly).Admits demoSession
        [.sendInLoop [1, 2, 3, 4] (.failed EAGAIN), .handleWrite (.accepted 1)] ∧
      ¬ (session.exec demoSession
        [.sendInLoop [1, 2, 3, 4] (.failed EAGAIN), .handleWrite (.accepted 1)]).Intact :=
  ⟨⟨_, _, _, _, _, rfl⟩, by decide +kernel, by decide +kernel⟩

end EduMuduo

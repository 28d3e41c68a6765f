/-
Module: EduMuduo.Proofs.HighWaterMark
Layer: Proofs
Purpose: The notifications about a full output buffer.  `sendInLoop` queues one exactly when the
  message lifts the pending length from below the mark to the mark or beyond, whatever part of the
  message the kernel took at once, and reports the length reached; `handleWrite` never lifts the
  pending length.  So the functors queued in a run are its upward crossings of the mark.
Imports: EduMuduo.Core.Session, EduMuduo.Library.Crossing, EduMuduo.Proofs.ConnectionOperations
Trusted boundary: none (fully proved)
Main exports: Session.notified, TcpConnection.sendInLoop_totals, Session.reportsCrossings,
  high_water_notifications
-/
import EduMuduo.Core.Session
import EduMuduo.Library.Crossing
import EduMuduo.Proofs.ConnectionOperations

namespace EduMuduo

open Library

/-- The total that a high-water functor will report. -/
def Queued.total : Queued → Option Nat
  | .writeCompleteCallback => none
  | .highWaterMarkCallback total => some total

theorem SafeBuffer.append_readableBytes (b : SafeBuffer) (data : List Byte) :
    (b.append data).readableBytes = b.readableBytes + data.length := by
  rw [← length_contents, append_contents, List.length_append, length_contents]

namespace TcpConnection

/-! ### What the two writing functions queue -/

/-- The direct write touches the descriptor and queues no high-water functor. -/
theorem writeDirectly_frame (self : TcpConnection) (data : List Byte) (result : WriteResult) :
    (∃ socket, (self.writeDirectly data result).1 = { self with socket := socket }) ∧
      (self.writeDirectly data result).2.2.2.filterMap Queued.total = [] := by
  cases result with
  | accepted n =>
      constructor
      · exact ⟨_, rfl⟩
      · rw [writeDirectly]
        dsimp only
        split <;> rfl
  | failed errno => exact ⟨⟨_, rfl⟩, rfl⟩

theorem bufferRest_pending (self : TcpConnection) (rest : List Byte) :
    (self.bufferRest rest).1.outputBuffer.readableBytes =
      self.outputBuffer.readableBytes + rest.length := by
  rw [bufferRest]
  dsimp only
  split <;> exact SafeBuffer.append_readableBytes _ _

/-- Buffering queues a functor exactly when it crosses the mark. -/
theorem bufferRest_totals (self : TcpConnection) (set : self.highWaterMarkCallback = true)
    (rest : List Byte) :
    (self.bufferRest rest).2.filterMap Queued.total =
      if self.outputBuffer.readableBytes < self.highWaterMark ∧
          self.highWaterMark ≤ (self.bufferRest rest).1.outputBuffer.readableBytes then
        [(self.bufferRest rest).1.outputBuffer.readableBytes]
      else [] := by
  have same : (self.bufferRest rest).2 =
      if self.outputBuffer.readableBytes < self.highWaterMark ∧
          self.highWaterMark ≤ self.outputBuffer.readableBytes + rest.length ∧
          self.highWaterMarkCallback then
        [.highWaterMarkCallback (self.outputBuffer.readableBytes + rest.length)]
      else [] := by
    rw [bufferRest]
    dsimp only
    split <;> rfl
  rw [same, bufferRest_pending, set]
  simp only [and_true]
  split <;> rfl

/-- A message queues a high-water functor exactly when it lifts the pending length over the mark,
and the functor reports the length reached. -/
theorem sendInLoop_totals (self : TcpConnection) (set : self.highWaterMarkCallback = true)
    (data : List Byte) (result : WriteResult) :
    (self.sendInLoop data result).2.filterMap Queued.total =
      if self.outputBuffer.readableBytes < self.highWaterMark ∧
          self.highWaterMark ≤ (self.sendInLoop data result).1.outputBuffer.readableBytes then
        [(self.sendInLoop data result).1.outputBuffer.readableBytes]
      else [] := by
  rw [sendInLoop]
  -- after the direct write, if there was one
  generalize attempted :
    (if self.channel.isWriting = false ∧ self.outputBuffer.readableBytes = 0 then
      self.writeDirectly data result else (self, 0, false, [])) = attempt
  have frame : (∃ socket, attempt.1 = { self with socket := socket }) ∧
      attempt.2.2.2.filterMap Queued.total = [] := by
    rw [← attempted]
    split
    · exact self.writeDirectly_frame data result
    · exact ⟨⟨self.socket, rfl⟩, rfl⟩
  obtain ⟨written, nwrote, error, queued⟩ := attempt
  obtain ⟨⟨socket, rfl⟩, none⟩ := frame
  dsimp only at none ⊢
  split
  · rw [List.filterMap_append, none, List.nil_append]
    exact bufferRest_totals { self with socket := socket } set _
  · -- nothing is buffered, so the pending length stays where it is
    rw [none, if_neg fun crosses => Nat.not_le_of_lt crosses.1 crosses.2]

/-- A write event queues no high-water functor. -/
theorem handleWrite_totals (self : TcpConnection) (result : WriteResult) :
    (self.handleWrite result).2.filterMap Queued.total = [] := by
  by_cases writing : self.channel.isWriting = true
  · simp only [handleWrite, if_pos writing]
    cases result with
    | failed errno => rfl
    | accepted n =>
        dsimp only
        split
        · split
          · split <;> split <;> rfl
          · rfl
        · rfl
  · simp only [handleWrite, if_neg writing]
    rfl

/-- A write event never lifts the pending length. -/
theorem handleWrite_pending (self : TcpConnection) {result : WriteResult}
    (fits : result.Fits self.outputBuffer.readableBytes) :
    (self.handleWrite result).1.outputBuffer.readableBytes ≤ self.outputBuffer.readableBytes := by
  have shorter : ∀ {buffer : SafeBuffer} {n : Nat},
      buffer.contents = (self.outputBuffer.contents.drop n).drop n →
        buffer.readableBytes ≤ self.outputBuffer.readableBytes := by
    intro buffer n contents
    rw [← buffer.length_contents, ← self.outputBuffer.length_contents, contents,
      List.drop_drop, List.length_drop]
    exact Nat.sub_le _ _
  cases self.handleWrite_effect fits with
  | idle _ same | failed _ _ _ same => exact Nat.le_of_eq (by rw [same])
  | kept _ n _ buffer contents _ same =>
      rw [same]
      exact shorter contents
  | drained _ n _ _ buffer contents empty same =>
      rw [same]
      exact shorter (n := n) (empty.trans contents.symm)

end TcpConnection

namespace Session

/-- The totals of the high-water functors that an event queues. -/
def notified (s : Session) (event : SessionEvent) : List Nat :=
  (s.queued event).filterMap Queued.total

/-- The callback is set, with this mark. -/
structure Marked (mark : Nat) (s : Session) : Prop where
  callback : s.conn.highWaterMarkCallback = true
  mark : s.conn.highWaterMark = mark

theorem established_marked (pointer : ConnId) (loop : LoopId) (name : String)
    (callbacks : Callbacks) (mark : Nat) :
    (established pointer loop name callbacks (some mark)).Marked mark := by
  constructor <;> rfl

/-- No event touches the callback or its mark. -/
theorem Marked.next {mark : Nat} {s : Session} (marked : s.Marked mark) {event : SessionEvent}
    (enabled : s.Enabled event) : (s.next event).Marked mark := by
  obtain ⟨callback, same⟩ := marked
  cases event with
  | sendInLoop data result =>
      constructor
      · rw [Session.next, TcpConnection.sendInLoop_frame]
        exact callback
      · rw [Session.next, TcpConnection.sendInLoop_frame]
        exact same
  | handleWrite result =>
      constructor
      · rw [Session.next, TcpConnection.handleWrite_frame s.conn enabled]
        exact callback
      · rw [Session.next, TcpConnection.handleWrite_frame s.conn enabled]
        exact same
  | handleRead result =>
      rw [Session.next, TcpConnection.handleRead_fst]
      exact ⟨callback, same⟩
  | shutdown => exact ⟨callback, same⟩
  | shutdownInLoop =>
      rw [Session.next, TcpConnection.shutdownInLoop_eq]
      exact ⟨callback, same⟩

/-- An event that does not lift the pending length and queues nothing. -/
theorem notified_of_le {mark : Nat} {s : Session} {event : SessionEvent}
    (quiet : s.notified event = []) (lower : (s.next event).pending ≤ s.pending) :
    s.notified event =
      if session.Crosses pending mark s event then [(s.next event).pending] else [] := by
  rw [quiet, if_neg]
  exact fun crosses => Nat.not_le_of_lt crosses.1 (Nat.le_trans crosses.2 lower)

/-- The step lemma: an event notifies exactly when it crosses the mark. -/
theorem Marked.notified {mark : Nat} {s : Session} (marked : s.Marked mark)
    {event : SessionEvent} (enabled : s.Enabled event) :
    s.notified event =
      if session.Crosses pending mark s event then [(s.next event).pending] else [] := by
  cases event with
  | sendInLoop data result =>
      have totals := s.conn.sendInLoop_totals marked.callback data result
      rw [marked.mark] at totals
      exact totals
  | handleWrite result =>
      apply notified_of_le
      · exact s.conn.handleWrite_totals result
      · exact s.conn.handleWrite_pending enabled
  | handleRead result =>
      apply notified_of_le rfl
      have same : (s.conn.handleRead result).1.outputBuffer = s.conn.outputBuffer := by
        rw [TcpConnection.handleRead_fst]
      exact Nat.le_of_eq (congrArg SafeBuffer.readableBytes same)
  | shutdown =>
      apply notified_of_le rfl
      exact Nat.le_refl _
  | shutdownInLoop =>
      apply notified_of_le rfl
      have same : s.conn.shutdownInLoop.outputBuffer = s.conn.outputBuffer := by
        rw [TcpConnection.shutdownInLoop_eq]
      exact Nat.le_of_eq (congrArg SafeBuffer.readableBytes same)

theorem Marked.exec {mark : Nat} {s : Session} (marked : s.Marked mark)
    {schedule : List SessionEvent} (admitted : session.Admits s schedule) :
    (session.exec s schedule).Marked mark := by
  induction schedule generalizing s with
  | nil => exact marked
  | cons event rest inductionHypothesis =>
      exact inductionHypothesis (marked.next admitted.1) admitted.2

/-- The run lemma: a session with the callback set reports its crossings. -/
theorem reportsCrossings {mark : Nat} {s : Session} (marked : s.Marked mark)
    {schedule : List SessionEvent} (admitted : session.Admits s schedule) :
    session.ReportsCrossings pending mark Session.notified s schedule := by
  intro front event rest split
  rw [split] at admitted
  obtain ⟨before, enabled, -⟩ := Machine.admits_append.mp admitted
  exact (marked.exec before).notified enabled

end Session

/-- In every run of a connection with a high-water callback and a positive mark the notifications
are as many as the upward crossings; at or above the mark exactly one has been queued since the
pending length was last below it, with the length right after the crossing; and between two
notifications the pending length has been below the mark again. -/
theorem high_water_notifications (pointer : ConnId) (loop : LoopId) (name : String)
    (callbacks : Callbacks) (mark : Nat) (positive : 1 ≤ mark) (schedule : List SessionEvent)
    (admitted : session.Admits (.established pointer loop name callbacks (some mark)) schedule) :
    let start := Session.established pointer loop name callbacks (some mark)
    (session.outputs Session.notified start schedule).length =
        session.crossings Session.pending mark start schedule ∧
      (mark ≤ (session.exec start schedule).pending →
        ∃ front event rest, schedule = front ++ event :: rest ∧
          (session.exec start front).pending < mark ∧
          session.StaysAbove Session.pending mark ((session.exec start front).next event) rest ∧
          session.outputs Session.notified (session.exec start front) (event :: rest) =
            [((session.exec start front).next event).pending]) ∧
      ∀ front first middle second rest,
        schedule = front ++ first :: middle ++ second :: rest →
          (session.exec start front).notified first ≠ [] →
          (session.exec start (front ++ first :: middle)).notified second ≠ [] →
          mark ≤ ((session.exec start front).next first).pending ∧
            (session.exec start (front ++ first :: middle)).pending < mark := by
  intro start
  have empty : start.pending = 0 := by
    change start.conn.outputBuffer.readableBytes = 0
    rw [SafeBuffer.readableBytes_eq_zero_iff]
    exact SafeBuffer.construct_contents
  have reports := Session.reportsCrossings
    (Session.established_marked pointer loop name callbacks mark) admitted
  refine ⟨reports.length, ?_, ?_⟩
  · intro above
    apply reports.last _ above
    rw [empty]
    exact positive
  · intro front first middle second rest split once again
    rw [split] at reports
    exact reports.separated once again

/-- Two crossings of the mark 3 with a drain between them. -/
theorem high_water_notifications_demo :
    (session.outputs Session.notified
        (.established 0 1 "EchoServer01-0.0.0.0:8002#1" ⟨true, true, false⟩ (some 3))
        [.sendInLoop [1, 2, 3, 4] (.failed EAGAIN), .sendInLoop [5] (.accepted 0),
          .handleWrite (.accepted 5), .sendInLoop [6, 7, 8, 9] (.accepted 1)]).length =
      session.crossings Session.pending 3
        (.established 0 1 "EchoServer01-0.0.0.0:8002#1" ⟨true, true, false⟩ (some 3))
        [.sendInLoop [1, 2, 3, 4] (.failed EAGAIN), .sendInLoop [5] (.accepted 0),
          .handleWrite (.accepted 5), .sendInLoop [6, 7, 8, 9] (.accepted 1)] :=
  (high_water_notifications 0 1 "EchoServer01-0.0.0.0:8002#1" ⟨true, true, false⟩ 3 (by decide)
    _ (by decide +kernel)).1

end EduMuduo

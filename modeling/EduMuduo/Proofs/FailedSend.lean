/-
Module: EduMuduo.Proofs.FailedSend
Layer: Proofs
Purpose: What follows a message that `sendInLoop` has discarded because its direct write failed.  The
  connection is left as it was, so the next message is written directly again: it leaves a hole in
  the stream unless it is empty or its own write fails for good too.  The stream has no hole exactly
  when the first error of that kind is permanent.
Imports: EduMuduo.Proofs.OutputStream
Trusted boundary: none (fully proved)
Main exports: Session.Discards, Session.Takes, Session.NoHole, Session.ErrorsPermanent,
  Session.Drained.next, failed_send_leaves_no_hole_iff
-/
import EduMuduo.Proofs.OutputStream

namespace EduMuduo

open Library

/-- An error other than the two that mean "later". -/
def WriteResult.FailsForGood : WriteResult → Prop
  | .failed errno => TcpConnection.isBlockingError errno = false
  | .accepted _ => False

instance : ∀ result : WriteResult, Decidable result.FailsForGood
  | .failed _ => inferInstanceAs (Decidable (_ = false))
  | .accepted _ => inferInstanceAs (Decidable False)

/-- An event that brings no message, or an empty one, or one whose write fails for good. -/
def SessionEvent.Refused : SessionEvent → Prop
  | .sendInLoop data result => data = [] ∨ result.FailsForGood
  | _ => True

instance : ∀ event : SessionEvent, Decidable event.Refused
  | .sendInLoop _ _ => inferInstanceAs (Decidable (_ ∨ _))
  | .handleWrite _ | .handleRead _ | .shutdown | .shutdownInLoop =>
      inferInstanceAs (Decidable True)

namespace Session

/-- Nothing is pending, so that `sendInLoop` writes directly. -/
structure Drained (s : Session) : Prop where
  idle : s.conn.channel.isWriting = false
  empty : s.conn.outputBuffer.contents = []

/-- The event is a `sendInLoop` that drops its message after a failed direct write. -/
def Discards (s : Session) : SessionEvent → Prop
  | .sendInLoop data result => s.Drained ∧ data ≠ [] ∧ result.FailsForGood
  | _ => False

/-- The event is a `sendInLoop` that hands a byte to the kernel or appends one to the buffer. -/
def Takes (s : Session) : SessionEvent → Prop
  | .sendInLoop data result =>
      (s.next (.sendInLoop data result)).conn.socket.accepted ≠ s.conn.socket.accepted ∨
        (s.next (.sendInLoop data result)).conn.outputBuffer.contents ≠
          s.conn.outputBuffer.contents
  | _ => False

/-- Behind a discarded message no byte of another one is taken. -/
def NoHole (s : Session) (schedule : List SessionEvent) : Prop :=
  ∀ front bad middle later rest, schedule = front ++ bad :: (middle ++ later :: rest) →
    (session.exec s front).Discards bad →
      ¬ (session.exec s (front ++ bad :: middle)).Takes later

/-- Every message behind a discarded one is empty or fails for good itself. -/
def ErrorsPermanent (s : Session) (schedule : List SessionEvent) : Prop :=
  ∀ front bad rest, schedule = front ++ bad :: rest → (session.exec s front).Discards bad →
    ∀ later ∈ rest, later.Refused

/-- The stream is a prefix of what was sent. -/
def IsPrefix (s : Session) : Prop := s.conn.stream <+: s.sent

/-! ### One event -/

/-- With nothing pending an event either is refused and leaves nothing pending and the stream as it
was, or it takes a byte. -/
theorem Drained.next {s : Session} (drained : s.Drained) (event : SessionEvent) :
    (event.Refused ∧ ¬ s.Takes event ∧ (s.next event).Drained ∧
        (s.next event).conn.stream = s.conn.stream) ∨
      (¬ event.Refused ∧ s.Takes event) := by
  obtain ⟨idle, empty⟩ := drained
  cases event with
  | sendInLoop data result =>
      by_cases none : data = []
      · -- an empty message changes nothing, whatever the write of no bytes returns
        left
        subst none
        have same : (s.next (.sendInLoop [] result)).conn.outputBuffer.contents =
              s.conn.outputBuffer.contents ∧
            (s.next (.sendInLoop [] result)).conn.socket.accepted = s.conn.socket.accepted ∧
            (s.next (.sendInLoop [] result)).conn.channel = s.conn.channel := by
          cases s.conn.sendInLoop_effect [] result with
          | written _ _ n _ _ same | discarded _ _ _ _ _ same =>
              simp [Session.next, same, Socket.write]
          | split _ _ n short _ _ => exact absurd short (Nat.not_lt_zero n)
          | buffered _ some _ => exact absurd rfl some
          | nothing _ _ same => simp [Session.next, same]
        obtain ⟨contents, accepted, channel⟩ := same
        refine ⟨.inl rfl, ?_, ⟨channel ▸ idle, contents.trans empty⟩, ?_⟩
        · exact not_or.mpr ⟨not_not.mpr accepted, not_not.mpr contents⟩
        · rw [TcpConnection.stream, accepted, contents, TcpConnection.stream]
      · cases s.conn.sendInLoop_effect data result with
        | written _ _ n _ answer same =>
            right
            subst answer
            refine ⟨not_or.mpr ⟨none, not_false⟩, .inl ?_⟩
            simp [Session.next, same, Socket.write, none]
        | discarded _ _ errno answer dropped same =>
            left
            subst answer
            have hard : TcpConnection.isBlockingError errno = false :=
              dropped.resolve_right none
            refine ⟨.inr hard, ?_, ⟨?_, ?_⟩, ?_⟩
            · simp [Takes, Session.next, same, Socket.write]
            · simpa [Session.next, same] using idle
            · simpa [Session.next, same] using empty
            · simp [Session.next, same, TcpConnection.stream, Socket.write]
        | split _ _ n short answer same =>
            right
            refine ⟨not_or.mpr ⟨none, ?_⟩, .inr ?_⟩
            · rcases answer with rfl | ⟨-, errno, rfl, blocking⟩
              · exact not_false
              · simp [WriteResult.FailsForGood, blocking]
            · simpa [Session.next, same, empty] using short
        | buffered pending _ _ | nothing pending _ _ =>
            rcases pending with writing | some
            · simp [idle] at writing
            · exact absurd empty some
  | handleWrite result =>
      left
      have same : (s.next (.handleWrite result)).conn = s.conn :=
        s.conn.handleWrite_idle idle
      exact ⟨trivial, not_false, ⟨by rw [same]; exact idle, by rw [same]; exact empty⟩,
        by rw [same]⟩
  | handleRead result =>
      left
      refine ⟨trivial, not_false, ⟨?_, ?_⟩, ?_⟩ <;>
        simp [Session.next, TcpConnection.stream, idle, empty]
  | shutdown => exact .inl ⟨trivial, not_false, ⟨idle, empty⟩, rfl⟩
  | shutdownInLoop =>
      left
      refine ⟨trivial, not_false, ⟨?_, ?_⟩, ?_⟩ <;>
        simp [Session.next, TcpConnection.shutdownInLoop_eq, TcpConnection.stream, idle, empty,
          Socket.shutdownWrite]

theorem Discards.drained {s : Session} {event : SessionEvent} (discards : s.Discards event) :
    s.Drained ∧ event.Refused := by
  cases event with
  | sendInLoop data result => exact ⟨discards.1, .inr discards.2.2⟩
  | handleWrite _ | handleRead _ | shutdown | shutdownInLoop => exact discards.elim

/-- A refused event with nothing pending leaves nothing pending and the stream as it was. -/
theorem Drained.next_refused {s : Session} (drained : s.Drained) {event : SessionEvent}
    (refused : event.Refused) :
    (s.next event).Drained ∧ (s.next event).conn.stream = s.conn.stream := by
  rcases drained.next event with ⟨-, -, after, same⟩ | ⟨not, -⟩
  · exact ⟨after, same⟩
  · exact absurd refused not

/-! ### Behind a discarded message -/

/-- Nothing is taken behind a state with nothing pending exactly when every event is refused. -/
theorem Drained.takes_none_iff {s : Session} (drained : s.Drained)
    {schedule : List SessionEvent} :
    (∀ middle later rest, schedule = middle ++ later :: rest →
        ¬ (session.exec s middle).Takes later) ↔
      ∀ later ∈ schedule, later.Refused := by
  induction schedule generalizing s with
  | nil => simp
  | cons event rest inductionHypothesis =>
      rw [forall_positions_cons, List.forall_mem_cons]
      rcases drained.next event with ⟨refused, quiet, after, -⟩ | ⟨admits, takes⟩
      · rw [and_iff_right refused, ← inductionHypothesis after]
        exact and_iff_right quiet
      · apply iff_of_false
        · exact fun none => none.1 takes
        · exact fun refused => admits refused.1

/-- The stream behind a discarded message does not move while every event is refused. -/
theorem Drained.exec_refused {s : Session} (drained : s.Drained) {schedule : List SessionEvent}
    (refused : ∀ later ∈ schedule, later.Refused) :
    (session.exec s schedule).conn.stream = s.conn.stream := by
  induction schedule generalizing s with
  | nil => rfl
  | cons event rest inductionHypothesis =>
      rw [List.forall_mem_cons] at refused
      obtain ⟨after, same⟩ := drained.next_refused refused.1
      exact (inductionHypothesis after refused.2).trans same

/-- There is no hole exactly when errors are permanent. -/
theorem noHole_iff (s : Session) (schedule : List SessionEvent) :
    s.NoHole schedule ↔ s.ErrorsPermanent schedule := by
  -- behind one discarded message the two say the same
  have same : ∀ front bad rest, (session.exec s front).Discards bad →
      ((∀ middle later others, rest = middle ++ later :: others →
          ¬ (session.exec s (front ++ bad :: middle)).Takes later) ↔
        ∀ later ∈ rest, later.Refused) := by
    intro front bad rest discards
    obtain ⟨drained, refused⟩ := discards.drained
    have after : (session.exec s (front ++ [bad])).Drained := by
      rw [Machine.exec_append]
      exact (drained.next_refused refused).1
    rw [← after.takes_none_iff]
    apply forall₄_congr
    intro middle later others _
    rw [← Machine.exec_append, List.append_assoc, List.singleton_append]
  constructor
  · intro noHole front bad rest split discards
    apply (same front bad rest discards).mp
    intro middle later others parts
    exact noHole front bad middle later others (by rw [split, parts]) discards
  · intro permanent front bad middle later rest split discards
    apply (same front bad (middle ++ later :: rest) discards).mpr _ middle later rest rfl
    exact permanent front bad _ split discards

/-! ### The stream as a prefix -/

theorem sent_next (s : Session) (event : SessionEvent) : s.sent <+: (s.next event).sent := by
  cases event with
  | sendInLoop data result => exact List.prefix_append _ _
  | handleWrite _ | handleRead _ | shutdown | shutdownInLoop => exact List.prefix_rfl

theorem sent_exec (s : Session) (schedule : List SessionEvent) :
    s.sent <+: (session.exec s schedule).sent := by
  induction schedule generalizing s with
  | nil => exact List.prefix_rfl
  | cons event rest inductionHypothesis =>
      exact (sent_next s event).trans (inductionHypothesis (s.next event))

/-- An event that discards nothing and is no partial write keeps the stream intact. -/
theorem Intact.next {s : Session} (intact : s.Intact) {event : SessionEvent}
    (enabled : s.Enabled event) (whole : WholeWrite s event) (kept : ¬ s.Discards event) :
    (s.next event).Intact := by
  cases event with
  | sendInLoop data result =>
      have moved : (s.conn.sendInLoop data result).1.stream = s.conn.stream ++ data := by
        by_cases lost : s.Drained ∧ result.FailsForGood
        · -- then the message is empty
          have none : data = [] := by
            by_contra some
            exact kept ⟨lost.1, some, lost.2⟩
          have refused : (SessionEvent.sendInLoop data result).Refused := .inl none
          have same := (lost.1.next_refused refused).2
          rw [none, List.append_nil, ← same, none]
          rfl
        · cases s.conn.sendInLoop_effect data result with
          | discarded idle drained errno answer dropped same =>
              have none : data = [] := by
                refine dropped.resolve_left fun hard => lost ⟨⟨idle, drained⟩, ?_⟩
                rw [answer]
                exact hard
              rw [same, none]
              simp [TcpConnection.stream, Socket.write]
          | written _ drained n _ _ same =>
              simp [same, TcpConnection.stream, Socket.write, drained]
          | split _ drained n _ _ same =>
              simp [same, TcpConnection.stream, Socket.write, drained]
          | buffered _ _ same => simp [same, TcpConnection.stream]
          | nothing _ none same => rw [same, none, List.append_nil]
      exact moved.trans (congrArg (· ++ data) intact)
  | handleWrite result =>
      have same := s.conn.handleWrite_stream_iff enabled
      have stream : (s.conn.handleWrite result).1.stream = s.conn.stream := by
        apply same.mpr
        rintro writing n rfl
        exact whole writing
      exact stream.trans intact
  | handleRead result => exact (next_intact_iff intact enabled trivial).mpr trivial
  | shutdown => exact intact
  | shutdownInLoop => exact (next_intact_iff intact enabled trivial).mpr trivial

/-- With permanent errors and no partial write the stream stays a prefix of what was sent. -/
theorem isPrefix_of_permanent {s : Session} (intact : s.Intact) {schedule : List SessionEvent}
    (admitted : session.Admits s schedule)
    (whole : ∀ front event rest, schedule = front ++ event :: rest →
      WholeWrite (session.exec s front) event)
    (permanent : s.ErrorsPermanent schedule) :
    (session.exec s schedule).IsPrefix := by
  induction schedule generalizing s with
  | nil =>
      have stream : s.conn.stream = s.sent := intact
      change s.conn.stream <+: s.sent
      exact stream ▸ List.prefix_rfl
  | cons event rest inductionHypothesis =>
      by_cases discards : s.Discards event
      · -- from here on the stream stands still
        obtain ⟨drained, refused⟩ := discards.drained
        have later := permanent [] event rest rfl discards
        obtain ⟨after, same⟩ := drained.next_refused refused
        have stream : (session.exec s (event :: rest)).conn.stream = s.sent :=
          ((after.exec_refused later).trans same).trans intact
        rw [IsPrefix, stream]
        exact sent_exec s (event :: rest)
      · apply inductionHypothesis
        · exact intact.next admitted.1 (whole [] event rest rfl) discards
        · exact admitted.2
        · exact (forall_positions_cons.mp whole).2
        · exact (forall_positions_cons.mp permanent).2

end Session

/-- In every run of a connection no byte of a message behind a discarded one is handed to the kernel
or buffered, if and only if every message behind the first discarded one is empty or its own write
fails for good; and then the stream is a prefix of the messages in every state, unless a write event
was partial. -/
theorem failed_send_leaves_no_hole_iff (s : Session) (initial : session.initial s)
    (schedule : List SessionEvent) (admitted : session.Admits s schedule) :
    (s.NoHole schedule ↔ s.ErrorsPermanent schedule) ∧
      ((∀ front event rest, schedule = front ++ event :: rest →
          WholeWrite (session.exec s front) event) →
        (s.NoHole schedule ∧
            (∀ front rest, schedule = front ++ rest → (session.exec s front).IsPrefix) ↔
          s.ErrorsPermanent schedule)) := by
  have intact : s.Intact := by
    obtain ⟨pointer, loop, name, callbacks, mark, rfl⟩ := initial
    exact Session.established_intact pointer loop name callbacks mark
  refine ⟨s.noHole_iff schedule, fun whole => ?_⟩
  rw [s.noHole_iff, and_iff_left_iff_imp]
  intro permanent front rest split
  subst split
  apply Session.isPrefix_of_permanent intact (Machine.admits_append.mp admitted).1
  · exact fun before event others parts => whole before event (others ++ rest) (by simp [parts])
  · intro before bad others parts discards later member
    apply permanent before bad (others ++ rest) (by simp [parts]) discards
    exact List.mem_append_left rest member

/-- Two messages that fail and none behind them: no hole. -/
theorem failed_send_leaves_no_hole_demo :
    demoSession.NoHole [.sendInLoop [1] (.failed EPIPE), .sendInLoop [2] (.failed EPIPE)] := by
  apply (failed_send_leaves_no_hole_iff demoSession ⟨_, _, _, _, _, rfl⟩ _
    (by decide +kernel)).1.mpr
  intro front bad rest split _ later member
  match front with
  | [] =>
      cases split
      rw [List.mem_singleton.mp member]
      decide
  | [_] =>
      cases split
      exact absurd member List.not_mem_nil
  | _ :: _ :: _ => simp at split

/-- An interrupted write drops the first message and the second one is sent: the peer receives what
is no prefix of the messages. -/
theorem failed_send_leaves_hole :
    session.initial demoSession ∧
      session.Admits demoSession
        [.sendInLoop [1] (.failed EINTR), .sendInLoop [2] (.accepted 1)] ∧
      ¬ demoSession.NoHole [.sendInLoop [1] (.failed EINTR), .sendInLoop [2] (.accepted 1)] ∧
      ¬ (session.exec demoSession
        [.sendInLoop [1] (.failed EINTR), .sendInLoop [2] (.accepted 1)]).IsPrefix := by
  have found : (session.exec demoSession
      [.sendInLoop [1] (.failed EINTR), .sendInLoop [2] (.accepted 1)]).conn.stream = [2] := by
    decide +kernel
  refine ⟨⟨_, _, _, _, _, rfl⟩, by decide +kernel, ?_, ?_⟩
  · rw [Session.noHole_iff]
    intro permanent
    have refused := permanent [] (.sendInLoop [1] (.failed EINTR)) _ rfl
      ⟨⟨by decide +kernel, by decide +kernel⟩, by decide, by decide⟩ _ List.mem_cons_self
    revert refused
    decide
  · rw [Session.IsPrefix, found]
    decide

end EduMuduo

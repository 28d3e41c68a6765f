/-
Module: EduMuduo.Proofs.WriteInterest
Layer: Proofs
Purpose: Write interest and pending output of a connection.  `sendInLoop` and `handleWrite` keep them
  together whatever the kernel answers: what is left over is appended and interest is asked for, and
  interest goes when the buffer is empty.  Only `disableAll`, at the end of a connection, does not
  look at the buffer.
Imports: EduMuduo.Proofs.Announcement
Trusted boundary: none
Main exports: TcpConnection.InterestKept, interestKept, write_interest_iff_pending
-/
import EduMuduo.Proofs.Announcement

namespace EduMuduo

open Library

namespace TcpConnection

/-- Write events are asked for exactly while there is something to write. -/
def InterestKept (self : TcpConnection) : Prop :=
  self.channel.isWriting = true ↔ self.outputBuffer.contents ≠ []

theorem InterestKept.of_same {self after : TcpConnection} (kept : self.InterestKept)
    (interest : after.channel.isWriting = self.channel.isWriting)
    (buffer : after.outputBuffer = self.outputBuffer) : after.InterestKept := by
  rw [InterestKept, interest, buffer]
  exact kept

theorem InterestKept.of_both {self : TcpConnection} (writing : self.channel.isWriting = true)
    (pending : self.outputBuffer.contents ≠ []) : self.InterestKept :=
  iff_of_true writing pending

theorem InterestKept.of_neither {self : TcpConnection} (idle : self.channel.isWriting = false)
    (drained : self.outputBuffer.contents = []) : self.InterestKept :=
  iff_of_false (by simp [idle]) (by simp [drained])

theorem construct_interestKept (pointer : ConnId) (loop : LoopId) (name : String)
    (callbacks : Callbacks) : (construct pointer loop name callbacks).InterestKept := by
  refine .of_neither ?_ SafeBuffer.construct_contents
  change Channel.construct.isWriting = false
  decide

theorem InterestKept.drained {self : TcpConnection} (kept : self.InterestKept)
    (idle : self.channel.isWriting = false) : self.outputBuffer.contents = [] := by
  by_contra pending
  exact absurd (kept.mpr pending) (by simp [idle])

theorem sendInLoop_interestKept {self : TcpConnection} (kept : self.InterestKept)
    (data : List Byte) (result : WriteResult) :
    (self.sendInLoop data result).1.InterestKept := by
  cases self.sendInLoop_effect data result with
  | written _ _ _ _ _ same | discarded _ _ _ _ _ same =>
      rw [same]
      exact kept.of_same rfl rfl
  | split _ _ n short _ same =>
      rw [same]
      refine .of_both (PolledChannel.change_isWriting _ _) ?_
      dsimp only
      rw [SafeBuffer.append_contents]
      have rest : data.drop n ≠ [] := by simpa using short
      exact List.append_ne_nil_of_right_ne_nil _ rest
  | buffered pending some same =>
      rw [same]
      refine .of_both ?_ ?_
      · dsimp only
        split
        · exact PolledChannel.change_isWriting _ _
        · rename_i writing
          simpa using writing
      · dsimp only
        rw [SafeBuffer.append_contents]
        exact List.append_ne_nil_of_right_ne_nil _ some
  | nothing _ _ same => rwa [same]

/-- The bytes that the second move of the read index drops do not matter here. -/
theorem handleWrite_interestKept {self : TcpConnection} (kept : self.InterestKept)
    {result : WriteResult} (fits : result.Fits self.outputBuffer.readableBytes) :
    (self.handleWrite result).1.InterestKept := by
  cases self.handleWrite_effect fits with
  | idle _ same => rwa [same]
  | failed _ _ _ same =>
      rw [same]
      exact kept.of_same rfl rfl
  | kept writing n _ buffer contents pending same =>
      rw [same]
      refine .of_both writing ?_
      rcases pending with rfl | pending
      · dsimp only
        rw [contents, List.drop_zero, List.drop_zero]
        exact kept.mp writing
      · exact pending
  | drained _ _ _ _ _ _ empty same =>
      rw [same]
      exact .of_neither (PolledChannel.change_isWriting _ _) empty

end TcpConnection

namespace World

/-- The connection is not ended, so write interest is kept. -/
def InterestKept (w : World) (c : ConnId) : Prop :=
  ¬ w.Closed c → ¬ w.Destroyed c → (w.conns c).conn.InterestKept

/-- A job that does not end its connection keeps write interest. -/
theorem Deed.interestKept {w : World} {l : LoopId} {kernel : Kernel} {job : Job}
    {after : TcpConnection} {events : List Event}
    (deed : Deed l kernel (w.conns job.conn).conn job after events) (ok : w.JobOk l job)
    (here : w.RunsHere l job) (fits : w.KernelFits kernel job)
    (unclosed : .handleClose ∉ (w.conns job.conn).history ++ events)
    (undestroyed : .connectDestroyed (w.conns job.conn).conn.loop ∉
      (w.conns job.conn).history ++ events)
    (kept : (w.conns job.conn).conn.InterestKept) : after.InterestKept := by
  cases deed with
  | establish c =>
      refine kept.of_same ?_ rfl
      simp only [TcpConnection.connectEstablished, PolledChannel.change_isWriting,
        PolledChannel.tie_isWriting]
  | destroy c =>
      obtain rfl : (w.conns c).conn.loop = l := here
      exact absurd (List.mem_append_right _ List.mem_cons_self) undestroyed
  | send c data caller => exact TcpConnection.sendInLoop_interestKept kept data kernel.write
  | shutdown c =>
      rw [TcpConnection.shutdownInLoop_eq]
      exact kept.of_same rfl rfl
  | close callback c input closing =>
      exact absurd (List.mem_append_right _ (by simp)) unclosed
  | write c => exact TcpConnection.handleWrite_interestKept kept fits
  | removeChannel c =>
      obtain rfl : (w.conns c).conn.loop = l := ok.2.1
      exact absurd (List.mem_append_left _ ok.2.2) undestroyed
  | remove c | other job | error c | read c input events received | closeCallback c => exact kept

theorem InterestKept.next {w : World} (placed : w.Placed) {a : Action} (guard : w.Enabled a)
    {c : ConnId} (kept : w.InterestKept c) : (w.next a).InterestKept c := by
  have change := World.next_change guard c
  rw [InterestKept, Closed, Destroyed] at kept ⊢
  generalize (w.next a).conns c = tracked at change ⊢
  cases change with
  | same => exact kept
  | constructed new =>
      exact fun _ _ => TcpConnection.construct_interestKept _ _ _ _
  | performed l kernel job running current about here fits after events conn log deed =>
      subst about
      have ok := placed.current_ok current
      have sameLoop : after.loop = (w.conns job.conn).conn.loop := by
        rw [conn]
        exact (World.perform_ok placed ok here fits).loop
      dsimp only
      rw [sameLoop]
      intro unclosed undestroyed
      exact deed.interestKept ok here fits unclosed undestroyed
        (kept (fun closed => unclosed (List.mem_append_left _ closed))
          fun destroyed => undestroyed (List.mem_append_left _ destroyed))
  | exchanged call => exact kept
  | marked mark => exact kept
  | retrieved len => exact kept

end World

theorem interestKept {w : World} (reachable : server.Reachable w) (c : ConnId) :
    w.InterestKept c := by
  refine reachable.invariant (I := fun w => w.InterestKept c) ?_
    fun w a before kept guard => kept.next (placed before) guard
  rintro w ⟨name, ipPort, callbacks, ioLoops, users, rfl⟩
  exact fun _ _ => TcpConnection.construct_interestKept _ _ _ _

/-- While neither `handleClose` nor `connectDestroyed` has run on a connection, it asks for write
events exactly when its output buffer holds bytes. -/
theorem write_interest_iff_pending {w : World} (reachable : server.Reachable w) {c : ConnId}
    (unclosed : ¬ w.Closed c) (undestroyed : ¬ w.Destroyed c) :
    (w.conns c).conn.channel.isWriting = true ↔
      0 < (w.conns c).conn.outputBuffer.readableBytes := by
  have kept := interestKept reachable c unclosed undestroyed
  rw [Nat.pos_iff_ne_zero, Ne, SafeBuffer.readableBytes_eq_zero_iff]
  exact kept

/-- The hypotheses are met by a connection whose only byte the kernel did not take. -/
theorem write_interest_iff_pending_demo :
    ((server.exec (demoServer 1 1) (demoOpening ++ [.send 0 0 [1], .queueInLoop 0, .poll 1 [],
      .doPendingFunctors 1, .run 1 ⟨.data [], .failed EAGAIN⟩])).conns
        0).conn.channel.isWriting = true := by
  have admitted : server.Admits (demoServer 1 1) (demoOpening ++ [.send 0 0 [1], .queueInLoop 0,
      .poll 1 [], .doPendingFunctors 1, .run 1 ⟨.data [], .failed EAGAIN⟩]) := by decide +kernel
  have reachable := admitted.reachable (demoServer_initial 1 1)
  exact (write_interest_iff_pending reachable (by decide +kernel) (by decide +kernel)).mpr
    (by decide +kernel)

end EduMuduo

/-
Module: EduMuduo.Proofs.ConnectionOperations
Layer: Proofs
Purpose: One specification for each member function of a connection: what it does to the output
  stream, to write interest, to the state and to the poller's index, and what it leaves alone.
  Later modules cite these and do not unfold the functions.
Imports: EduMuduo.Core.TcpConnection
Trusted boundary: none
Main exports: TcpConnection.SendEffect, TcpConnection.sendInLoop_effect,
  TcpConnection.WriteEffect, TcpConnection.handleWrite_effect, TcpConnection.handleRead_fst,
  TcpConnection.shutdownInLoop_eq
-/
import EduMuduo.Core.TcpConnection

namespace EduMuduo

namespace TcpConnection

/-! ### The two writing functions, case by case -/

/-- Everything `sendInLoop` can make of the connection, by what it found and what the kernel
answered. -/
inductive SendEffect (self : TcpConnection) (data : List Byte) (result : WriteResult)
    (after : TcpConnection) : Prop where
  | written (idle : self.channel.isWriting = false) (drained : self.outputBuffer.contents = [])
      (n : Nat) (whole : data.length ≤ n) (answer : result = .accepted n)
      (same : after = { self with socket := self.socket.write data })
  | discarded (idle : self.channel.isWriting = false) (drained : self.outputBuffer.contents = [])
      (errno : Errno) (answer : result = .failed errno)
      (dropped : isBlockingError errno = false ∨ data = [])
      (same : after = { self with socket := self.socket.write [] })
  | split (idle : self.channel.isWriting = false) (drained : self.outputBuffer.contents = [])
      (n : Nat) (short : n < data.length)
      (answer : result = .accepted n ∨
        n = 0 ∧ ∃ errno, result = .failed errno ∧ isBlockingError errno = true)
      (same : after =
        { self with
          socket := self.socket.write (data.take n)
          outputBuffer := self.outputBuffer.append (data.drop n)
          channel := self.channel.change .enableWriting })
  | buffered (pending : self.channel.isWriting = true ∨ self.outputBuffer.contents ≠ [])
      (some : data ≠ [])
      (same : after =
        { self with
          outputBuffer := self.outputBuffer.append data
          channel := if self.channel.isWriting = false then self.channel.change .enableWriting
            else self.channel })
  | nothing (pending : self.channel.isWriting = true ∨ self.outputBuffer.contents ≠ [])
      (none : data = []) (same : after = self)

theorem sendInLoop_effect (self : TcpConnection) (data : List Byte) (result : WriteResult) :
    SendEffect self data result (self.sendInLoop data result).1 := by
  have drained_iff := self.outputBuffer.readableBytes_eq_zero_iff
  by_cases direct : self.channel.isWriting = false ∧ self.outputBuffer.contents = []
  · obtain ⟨idle, drained⟩ := direct
    have found : self.channel.isWriting = false ∧ self.outputBuffer.readableBytes = 0 :=
      ⟨idle, drained_iff.mpr drained⟩
    simp only [sendInLoop, if_pos found]
    cases result with
    | accepted n =>
        by_cases whole : data.length ≤ n
        · refine .written idle drained n whole rfl ?_
          simp [writeDirectly, whole, List.take_of_length_le whole]
        · have rest : 0 < data.length - n := by omega
          refine .split idle drained n (by omega) (.inl rfl) ?_
          simp [writeDirectly, rest, bufferRest, idle]
    | failed errno =>
        by_cases blocking : isBlockingError errno = true ∧ data ≠ []
        · have rest : 0 < data.length := List.length_pos_iff.mpr blocking.2
          refine .split idle drained 0 rest (.inr ⟨rfl, errno, rfl, blocking.1⟩) ?_
          simp [writeDirectly, rest, bufferRest, idle, blocking.1]
        · have dropped : isBlockingError errno = false ∨ data = [] := by
            by_cases none : data = []
            · exact .inr none
            · exact .inl (by simpa [none] using blocking)
          refine .discarded idle drained errno rfl dropped ?_
          rcases dropped with hard | none
          · simp [writeDirectly, hard]
          · simp [writeDirectly, none]
  · have pending : self.channel.isWriting = true ∨ self.outputBuffer.contents ≠ [] := by
      by_cases idle : self.channel.isWriting = false
      · exact .inr fun drained => direct ⟨idle, drained⟩
      · exact .inl (by simpa using idle)
    have found : ¬ (self.channel.isWriting = false ∧ self.outputBuffer.readableBytes = 0) := by
      rw [drained_iff]
      exact direct
    simp only [sendInLoop, if_neg found]
    by_cases none : data = []
    · exact .nothing pending none (by simp [none])
    · refine .buffered pending none ?_
      have rest : 0 < data.length := List.length_pos_iff.mpr none
      cases writing : self.channel.isWriting <;> simp [rest, bufferRest, writing]

/-- Everything `handleWrite` can make of the connection when the kernel keeps to its contract. -/
inductive WriteEffect (self : TcpConnection) (result : WriteResult) (after : TcpConnection) :
    Prop where
  | idle (idle : self.channel.isWriting = false) (same : after = self)
  | failed (writing : self.channel.isWriting = true) (errno : Errno)
      (answer : result = .failed errno)
      (same : after = { self with socket := self.socket.write [] })
  | kept (writing : self.channel.isWriting = true) (n : Nat) (answer : result = .accepted n)
      (buffer : SafeBuffer)
      -- `writeFd` has moved the read index past the written bytes, and `retrieve` moves it again
      (contents : buffer.contents = (self.outputBuffer.contents.drop n).drop n)
      (pending : n = 0 ∨ buffer.contents ≠ [])
      (same : after =
        { self with
          socket := self.socket.write (self.outputBuffer.contents.take n)
          outputBuffer := buffer })
  | drained (writing : self.channel.isWriting = true) (n : Nat) (answer : result = .accepted n)
      (some : 0 < n) (buffer : SafeBuffer)
      (contents : (self.outputBuffer.contents.drop n).drop n = [])
      (empty : buffer.contents = [])
      (same : after =
        { self with
          socket :=
            if self.state = .disconnecting then
              (self.socket.write (self.outputBuffer.contents.take n)).shutdownWrite
            else self.socket.write (self.outputBuffer.contents.take n)
          outputBuffer := buffer
          channel := self.channel.change .disableWriting })

theorem handleWrite_effect (self : TcpConnection) {result : WriteResult}
    (fits : result.Fits self.outputBuffer.readableBytes) :
    WriteEffect self result (self.handleWrite result).1 := by
  by_cases writing : self.channel.isWriting = true
  · simp only [handleWrite, if_pos writing]
    cases result with
    | failed errno => exact .failed writing errno rfl rfl
    | accepted n =>
        have written : (self.outputBuffer.writeFd (.accepted n)).contents =
            self.outputBuffer.contents.drop n := SafeBuffer.writeFd_accepted _ fits
        have twice : ((self.outputBuffer.writeFd (.accepted n)).retrieve n).contents =
            (self.outputBuffer.contents.drop n).drop n := by
          rw [SafeBuffer.retrieve_contents, written]
        rcases Nat.eq_zero_or_pos n with zero | some
        · subst n
          exact .kept writing 0 rfl _ (by rw [written]; simp) (.inl rfl) (by simp)
        · simp only [gt_iff_lt, if_pos some, SafeBuffer.readableBytes_eq_zero_iff]
          by_cases empty : ((self.outputBuffer.writeFd (.accepted n)).retrieve n).contents = []
          · rw [if_pos empty]
            refine .drained writing n rfl some _ (twice ▸ empty) empty ?_
            split <;> simp [shutdownInLoop, *]
          · rw [if_neg empty]
            exact .kept writing n rfl _ twice (.inr empty) rfl
  · simp only [handleWrite, if_neg writing]
    exact .idle (by simpa using writing) rfl

/-- Sending touches the descriptor, the output buffer and the channel only. -/
theorem sendInLoop_frame (self : TcpConnection) (data : List Byte) (result : WriteResult) :
    (self.sendInLoop data result).1 = { self with
      socket := (self.sendInLoop data result).1.socket
      outputBuffer := (self.sendInLoop data result).1.outputBuffer
      channel := (self.sendInLoop data result).1.channel } := by
  cases self.sendInLoop_effect data result with
  | written _ _ _ _ _ same | discarded _ _ _ _ _ same | split _ _ _ _ _ same
  | buffered _ _ same | nothing _ _ same => rw [same]

@[simp] theorem sendInLoop_loop (self : TcpConnection) (data : List Byte)
    (result : WriteResult) : (self.sendInLoop data result).1.loop = self.loop := by
  rw [sendInLoop_frame]

@[simp] theorem sendInLoop_name (self : TcpConnection) (data : List Byte)
    (result : WriteResult) : (self.sendInLoop data result).1.name = self.name := by
  rw [sendInLoop_frame]

@[simp] theorem sendInLoop_state (self : TcpConnection) (data : List Byte)
    (result : WriteResult) : (self.sendInLoop data result).1.state = self.state := by
  rw [sendInLoop_frame]

theorem sendInLoop_callbacks (self : TcpConnection) (data : List Byte)
    (result : WriteResult) : (self.sendInLoop data result).1.callbacks = self.callbacks := by
  rw [sendInLoop_frame]

/-- So does a write event. -/
theorem handleWrite_frame (self : TcpConnection) {result : WriteResult}
    (fits : result.Fits self.outputBuffer.readableBytes) :
    (self.handleWrite result).1 = { self with
      socket := (self.handleWrite result).1.socket
      outputBuffer := (self.handleWrite result).1.outputBuffer
      channel := (self.handleWrite result).1.channel } := by
  cases self.handleWrite_effect fits with
  | idle _ same | failed _ _ _ same | kept _ _ _ _ _ _ same | drained _ _ _ _ _ _ _ same =>
      rw [same]

theorem handleWrite_loop (self : TcpConnection) {result : WriteResult}
    (fits : result.Fits self.outputBuffer.readableBytes) :
    (self.handleWrite result).1.loop = self.loop := by
  rw [handleWrite_frame self fits]

theorem handleWrite_name (self : TcpConnection) {result : WriteResult}
    (fits : result.Fits self.outputBuffer.readableBytes) :
    (self.handleWrite result).1.name = self.name := by
  rw [handleWrite_frame self fits]

theorem handleWrite_state (self : TcpConnection) {result : WriteResult}
    (fits : result.Fits self.outputBuffer.readableBytes) :
    (self.handleWrite result).1.state = self.state := by
  rw [handleWrite_frame self fits]

theorem handleWrite_callbacks (self : TcpConnection) {result : WriteResult}
    (fits : result.Fits self.outputBuffer.readableBytes) :
    (self.handleWrite result).1.callbacks = self.callbacks := by
  rw [handleWrite_frame self fits]

/-- Sending never shuts the write side down. -/
theorem sendInLoop_shutdownWrites (self : TcpConnection) (data : List Byte)
    (result : WriteResult) :
    (self.sendInLoop data result).1.socket.shutdownWrites = self.socket.shutdownWrites := by
  cases self.sendInLoop_effect data result with
  | written _ _ _ _ _ same | discarded _ _ _ _ _ same | split _ _ _ _ _ same =>
      rw [same]
      rfl
  | buffered _ _ same | nothing _ _ same => rw [same]

@[simp] theorem sendInLoop_tied (self : TcpConnection) (data : List Byte)
    (result : WriteResult) :
    (self.sendInLoop data result).1.channel.channel.tied = self.channel.channel.tied := by
  cases self.sendInLoop_effect data result with
  | written _ _ _ _ _ same | discarded _ _ _ _ _ same | nothing _ _ same => rw [same]
  | split _ _ _ _ _ same =>
      rw [same]
      exact PolledChannel.change_tied _ _
  | buffered _ _ same =>
      rw [same]
      dsimp only
      split
      · exact PolledChannel.change_tied _ _
      · rfl

theorem handleWrite_tied (self : TcpConnection) {result : WriteResult}
    (fits : result.Fits self.outputBuffer.readableBytes) :
    (self.handleWrite result).1.channel.channel.tied = self.channel.channel.tied := by
  cases self.handleWrite_effect fits with
  | idle _ same | failed _ _ _ same | kept _ _ _ _ _ _ same => rw [same]
  | drained _ _ _ _ _ _ _ same =>
      rw [same]
      exact PolledChannel.change_tied _ _

@[simp] theorem connectDestroyed_tied (self : TcpConnection) :
    self.connectDestroyed.1.channel.channel.tied = self.channel.channel.tied := by
  rw [connectDestroyed]
  split
  · exact PolledChannel.change_tied _ _
  · rfl

/-- Without write interest a write event does nothing. -/
theorem handleWrite_idle (self : TcpConnection) {result : WriteResult}
    (idle : self.channel.isWriting = false) : (self.handleWrite result).1 = self := by
  simp [handleWrite, idle]

/-- An empty message behind pending bytes does nothing. -/
theorem sendInLoop_nothing (self : TcpConnection) {data : List Byte} {result : WriteResult}
    (none : data = []) (pending : self.outputBuffer.readableBytes ≠ 0) :
    (self.sendInLoop data result).1 = self := by
  simp [sendInLoop, none, pending]

@[simp] theorem connectDestroyed_state (self : TcpConnection) :
    self.connectDestroyed.1.state = .disconnected := by
  rw [connectDestroyed]
  split <;> rfl

/-- Destroying an unconnected connection changes its state only, and announces nothing. -/
theorem connectDestroyed_of_ne (self : TcpConnection) (unconnected : self.state ≠ .connected) :
    self.connectDestroyed = ({ self with state := .disconnected }, false) := by
  simp [connectDestroyed, unconnected]

/-- Reading changes the input buffer only. -/
@[simp] theorem handleRead_fst (self : TcpConnection) (result : ReadResult) :
    (self.handleRead result).1 =
      { self with inputBuffer := self.inputBuffer.readFd result } := by
  cases result <;> rfl

/-- `shutdownInLoop` changes the descriptor only. -/
theorem shutdownInLoop_eq (self : TcpConnection) :
    self.shutdownInLoop = { self with
      socket := if self.channel.isWriting = false then self.socket.shutdownWrite
        else self.socket } := by
  rw [shutdownInLoop]
  split <;> rfl

end TcpConnection

end EduMuduo

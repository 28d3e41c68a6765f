/-
Module: EduMuduo.Proofs.BufferGrowth
Layer: Proofs
Purpose: How large the vector of a buffer gets.  `makeSpace` grows it only when the readable bytes
  and the new ones do not fit beside the prependable area; then the reader index is below the new
  bytes plus `kCheapPrepend`, so the new size is less than twice what is readable afterwards plus
  `kCheapPrepend`.  Consumed space in front of the readable bytes can therefore never ratchet the
  vector up.
Imports: EduMuduo.Core.SafeBuffer, EduMuduo.Proofs.BufferRefinement
Trusted boundary: none (fully proved)
Main exports: Buffer.append_length, Buffer.perform_length, Buffer.peak, Buffer.run_length,
  memory_proportional_to_peak
-/
import EduMuduo.Core.SafeBuffer
import EduMuduo.Proofs.BufferRefinement

namespace EduMuduo

open Library
open Library.Memory (Fault)

namespace Buffer

/-! ### One operation -/

/-- `ensureWritableSpace` leaves the size alone when the readable bytes and the new ones fit, and
otherwise makes it less than twice their number plus `kCheapPrepend`. -/
theorem ensureWritableSpace_length {b b' : Buffer} (wf : b.WellFormed) {len : Nat}
    (ensured : b.ensureWritableSpace len = .ok b') :
    if b.readableBytes + len + kCheapPrepend ≤ b.buffer.length then
      b'.buffer.length = b.buffer.length
    else
      b'.buffer.length ≤
        max b.buffer.length (2 * (b.readableBytes + len) + kCheapPrepend) := by
  obtain ⟨prepend, ordered, inside, extra⟩ := wf
  rw [ensureWritableSpace] at ensured
  split at ensured
  · rename_i short
    rw [makeSpace] at ensured
    split at ensured
    · -- the vector grows to `writerIndex_ + len`
      rename_i cramped
      cases ensured
      simp only [writableBytes, prependableBytes] at cramped
      have small : ¬ b.readableBytes + len + kCheapPrepend ≤ b.buffer.length := by
        rw [readableBytes]
        omega
      rw [if_neg small]
      dsimp only
      rw [Memory.length_resize]
      apply Nat.le_trans _ (Nat.le_max_right _ _)
      rw [readableBytes]
      omega
    · -- the readable bytes move down
      rename_i room
      simp only [writableBytes, prependableBytes] at room short
      have lower : kCheapPrepend < b.readerIndex := by omega
      rw [Memory.copy_ok lower ordered inside] at ensured
      cases ensured
      dsimp only
      rw [Memory.length_copyForward]
      split
      · rfl
      · exact Nat.le_max_left _ _
  · cases ensured
    split
    · rfl
    · exact Nat.le_max_left _ _

/-- Storing the bytes keeps the size. -/
theorem append_grown {b b' : Buffer} {data : List Byte} (appended : b.append data = .ok b') :
    ∃ grown, b.ensureWritableSpace data.length = .ok grown ∧
      b'.buffer.length = grown.buffer.length := by
  rw [append] at appended
  cases grows : b.ensureWritableSpace data.length with
  | error fault => rw [grows] at appended; cases appended
  | ok grown =>
      rw [grows] at appended
      refine ⟨grown, rfl, ?_⟩
      by_cases fits : grown.writerIndex + data.length ≤ grown.buffer.length
      · simp only [bind, Except.bind, Memory.store_ok fits] at appended
        cases appended
        exact Memory.length_overwrite fits
      · simp only [bind, Except.bind, Memory.store, if_neg fits] at appended
        cases appended

theorem append_length {b b' : Buffer} (wf : b.WellFormed) {data : List Byte}
    (appended : b.append data = .ok b') :
    if b.readableBytes + data.length + kCheapPrepend ≤ b.buffer.length then
      b'.buffer.length = b.buffer.length
    else
      b'.buffer.length ≤
        max b.buffer.length (2 * (b.readableBytes + data.length) + kCheapPrepend) := by
  obtain ⟨grown, ensured, same⟩ := append_grown appended
  rw [same]
  exact ensureWritableSpace_length wf ensured

theorem append_readableBytes {b b' : Buffer} (wf : b.WellFormed) {data : List Byte}
    (appended : b.append data = .ok b') :
    b'.readableBytes = b.readableBytes + data.length := by
  obtain ⟨raw, same, wf', contents⟩ := append_spec wf data
  rw [appended, Except.ok.injEq] at same
  subst same
  rw [← length_contents wf', contents, List.length_append, length_contents wf]

/-- The bound that each operation keeps, in terms of the buffer after it. -/
theorem append_bounded {b b' : Buffer} (wf : b.WellFormed) {data : List Byte}
    (appended : b.append data = .ok b') :
    b'.buffer.length ≤ max b.buffer.length (2 * b'.readableBytes + kCheapPrepend) := by
  have size := append_length wf appended
  rw [← append_readableBytes wf appended] at size
  split at size
  · exact Nat.le_trans (Nat.le_of_eq size) (Nat.le_max_left _ _)
  · exact size

/-- The bytes that spill over are appended to a vector that is full. -/
theorem readFd_filled {b : Buffer} (wf : b.WellFormed) {bytes : List Byte}
    (fits : (ReadResult.data bytes).Fits b.readRoom) :
    ∃ filled : Buffer, filled.WellFormed ∧ filled.buffer.length = b.buffer.length ∧
      b.readFd (.data bytes) = (do
        let b ← filled.handleReadResult bytes.length b.writableBytes
        .ok (b, .done bytes.length)) := by
  obtain ⟨prepend, ordered, inside, extra⟩ := wf
  have room : bytes.length ≤ b.writableBytes + b.extrabuf.length := by
    simp only [ReadResult.Fits, readRoom] at fits
    split at fits <;> omega
  have first : b.writerIndex + (bytes.take b.writableBytes).length ≤ b.buffer.length := by
    simp only [List.length_take, writableBytes]
    omega
  have second : 0 + (bytes.drop b.writableBytes).length ≤ b.extrabuf.length := by
    simp only [List.length_drop]
    omega
  have length := Memory.length_overwrite first
  have spill := Memory.length_overwrite second
  refine ⟨{ b with
      buffer := Memory.overwrite b.buffer b.writerIndex (bytes.take b.writableBytes)
      extrabuf := Memory.overwrite b.extrabuf 0 (bytes.drop b.writableBytes) }, ?_, length, ?_⟩
  · exact ⟨prepend, ordered, Nat.le_trans inside (Nat.le_of_eq length.symm), spill.trans extra⟩
  · simp only [readFd, bind, Except.bind, Memory.store_ok first, Memory.store_ok second]

theorem handleReadResult_bounded {b b' : Buffer} (wf : b.WellFormed) {n writable : Nat}
    (handled : b.handleReadResult n writable = .ok b') :
    b'.buffer.length ≤ max b.buffer.length (2 * b'.readableBytes + kCheapPrepend) := by
  rw [handleReadResult] at handled
  split at handled
  · cases handled
    exact Nat.le_max_left _ _
  · obtain ⟨prepend, ordered, inside, extra⟩ := wf
    have full : WellFormed { b with writerIndex := b.buffer.length } :=
      ⟨prepend, Nat.le_trans ordered inside, Nat.le_refl _, extra⟩
    have bound := append_bounded full handled
    exact bound

theorem readFd_bounded {b b' : Buffer} (wf : b.WellFormed) {result : ReadResult}
    {outcome : IoOutcome} (fits : result.Fits b.readRoom)
    (returned : b.readFd result = .ok (b', outcome)) :
    b'.buffer.length ≤ max b.buffer.length (2 * b'.readableBytes + kCheapPrepend) := by
  cases result with
  | failed errno =>
      cases returned
      exact Nat.le_max_left _ _
  | data bytes =>
      obtain ⟨filled, filledWf, length, reads⟩ := readFd_filled wf fits
      rw [reads] at returned
      cases handled : filled.handleReadResult bytes.length b.writableBytes with
      | error fault => rw [handled] at returned; cases returned
      | ok after =>
          rw [handled] at returned
          cases returned
          exact length ▸ handleReadResult_bounded filledWf handled

theorem retrieve_length (b : Buffer) (len : Nat) :
    (b.retrieve len).buffer.length = b.buffer.length := by
  rw [retrieve]
  split <;> rfl

/-- No call makes the vector larger than it was or than twice the readable bytes after the call
plus `kCheapPrepend`. -/
theorem perform_length {b b' : Buffer} (wf : b.WellFormed) {call : Call} {reply : Reply}
    (fits : call.Fits b) (performed : b.perform call = .ok (b', reply)) :
    b'.buffer.length ≤ max b.buffer.length (2 * b'.readableBytes + kCheapPrepend) := by
  cases call with
  | append data =>
      rw [perform] at performed
      cases appended : b.append data with
      | error fault => rw [appended] at performed; cases performed
      | ok after =>
          rw [appended] at performed
          cases performed
          exact append_bounded wf appended
  | readFd result =>
      rw [perform] at performed
      cases returned : b.readFd result with
      | error fault => rw [returned] at performed; cases performed
      | ok after =>
          rw [returned] at performed
          cases performed
          exact readFd_bounded wf fits returned
  | retrieve len | retrieveAsString len | retrieveAllAsString =>
      cases performed
      exact Nat.le_trans (Nat.le_of_eq (retrieve_length b _)) (Nat.le_max_left _ _)
  | retrieveAll =>
      cases performed
      exact Nat.le_max_left _ _
  | writeFd result =>
      cases performed
      cases result <;> exact Nat.le_max_left _ _

/-! ### Whole runs -/

/-- The largest number of readable bytes that the buffer holds before or after any of the calls. -/
def peak (b : Buffer) : List Call → Nat
  | [] => b.readableBytes
  | call :: rest =>
      match b.perform call with
      | .ok (b', _) => max b.readableBytes (peak b' rest)
      | .error _ => b.readableBytes

theorem readableBytes_le_peak (b : Buffer) (calls : List Call) :
    b.readableBytes ≤ b.peak calls := by
  cases calls with
  | nil => exact Nat.le_refl _
  | cons call rest =>
      rw [peak]
      split
      · exact Nat.le_max_left _ _
      · exact Nat.le_refl _

/-- Over a run of calls the vector stays within its first size or twice the peak. -/
theorem run_length {b b' : Buffer} (wf : b.WellFormed) {calls : List Call}
    {replies : List Reply} (admitted : b.Admits calls)
    (runs : b.run calls = .ok (b', replies)) :
    b'.buffer.length ≤ max b.buffer.length (2 * b.peak calls + kCheapPrepend) := by
  induction calls generalizing b replies with
  | nil =>
      cases runs
      exact Nat.le_max_left _ _
  | cons call rest inductionHypothesis =>
      obtain ⟨fits, later⟩ := admitted
      obtain ⟨next, reply, performed, nextWf, -⟩ := perform_refines wf fits
      have first := perform_length wf fits performed
      have start := readableBytes_le_peak next rest
      rw [performed] at later
      rw [run, performed] at runs
      cases after : next.run rest with
      | error fault => simp [bind, Except.bind, after] at runs
      | ok result =>
          obtain ⟨final, others⟩ := result
          simp only [bind, Except.bind, after, Except.ok.injEq, Prod.mk.injEq] at runs
          obtain ⟨rfl, -⟩ := runs
          have rest := inductionHypothesis nextWf later after
          simp only [peak, performed]
          omega

end Buffer

/-- A buffer of any initial size after any calls: its vector is no larger than it was constructed
or than twice the peak of its content plus `kCheapPrepend`, and an `append` that fits with the
readable bytes and `kCheapPrepend` does not make it larger. -/
theorem memory_proportional_to_peak (initialSize : Nat) (garbage : Vector Byte kExtraBufSize)
    (calls : List Buffer.Call)
    (admitted : (Buffer.construct initialSize garbage).Admits calls) :
    ∃ b replies, (Buffer.construct initialSize garbage).run calls = .ok (b, replies) ∧
      b.buffer.length ≤ max (kCheapPrepend + initialSize)
        (2 * (Buffer.construct initialSize garbage).peak calls + kCheapPrepend) ∧
      ∀ data : List Byte,
        b.readableBytes + data.length + kCheapPrepend ≤ b.buffer.length →
          ∃ b', b.append data = .ok b' ∧ b'.buffer.length = b.buffer.length := by
  have start := Buffer.construct_wellFormed initialSize garbage
  obtain ⟨b, replies, runs, wf, -⟩ := Buffer.run_refines start admitted
  refine ⟨b, replies, runs, ?_, ?_⟩
  · have bound := Buffer.run_length start admitted runs
    have size : (Buffer.construct initialSize garbage).buffer.length =
        kCheapPrepend + initialSize := List.length_replicate
    rwa [size] at bound
  · intro data fits
    obtain ⟨b', appended, -, -⟩ := Buffer.append_spec wf data
    have size := Buffer.append_length wf appended
    rw [if_pos fits] at size
    exact ⟨b', appended, size⟩

/-- Partial consumption and growth: 9 bytes through a buffer constructed for 4. -/
theorem memory_proportional_to_peak_demo :
    ∃ b replies,
      (Buffer.construct 4 (.replicate kExtraBufSize 0)).run
        [.append [1, 2, 3, 4], .writeFd (.accepted 2), .append [5, 6, 7, 8, 9],
          .retrieve 6] = .ok (b, replies) ∧
      b.buffer.length ≤ max (kCheapPrepend + 4)
        (2 * (Buffer.construct 4 (.replicate kExtraBufSize 0)).peak
          [.append [1, 2, 3, 4], .writeFd (.accepted 2), .append [5, 6, 7, 8, 9],
            .retrieve 6] + kCheapPrepend) := by
  obtain ⟨b, replies, runs, bound, -⟩ :=
    memory_proportional_to_peak 4 (.replicate kExtraBufSize 0)
      [.append [1, 2, 3, 4], .writeFd (.accepted 2), .append [5, 6, 7, 8, 9], .retrieve 6]
      (by decide)
  exact ⟨b, replies, runs, bound⟩

end EduMuduo

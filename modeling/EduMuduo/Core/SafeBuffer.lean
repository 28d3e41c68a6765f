/-
Module: EduMuduo.Core.SafeBuffer
Layer: Core
Purpose: The representation invariant of the byte buffer and one specification per member
  function: on a well-formed buffer no copy faults, the result is well formed, and the readable
  bytes change as stated.  `SafeBuffer` packages a buffer with its invariant, so that the
  connection above it works with total operations and never re-proves index arithmetic.
Imports: EduMuduo.Core.Buffer
Trusted boundary: none
Main exports: Buffer.WellFormed, Buffer.append_spec, Buffer.retrieve_contents, Buffer.readFd_spec,
  Buffer.writeFd_spec, SafeBuffer, SafeBuffer.contents
-/
import EduMuduo.Core.Buffer

namespace EduMuduo

open Library
open Library.Memory (Fault)

namespace Buffer

/-- The representation invariant: `kCheapPrepend <= readerIndex_ <= writerIndex_ <= size()`, and the
spill array has its declared length. -/
structure WellFormed (b : Buffer) : Prop where
  prepend : kCheapPrepend ≤ b.readerIndex
  ordered : b.readerIndex ≤ b.writerIndex
  inside : b.writerIndex ≤ b.buffer.length
  extra : b.extrabuf.length = kExtraBufSize

theorem length_contents {b : Buffer} (wf : b.WellFormed) :
    b.contents.length = b.readableBytes :=
  Memory.length_window _ wf.inside

theorem construct_wellFormed (initialSize : Nat) (garbage : Vector Byte kExtraBufSize) :
    (construct initialSize garbage).WellFormed := by
  refine ⟨Nat.le_refl _, Nat.le_refl _, ?_, ?_⟩ <;> simp [construct]

@[simp] theorem construct_contents (initialSize : Nat) (garbage : Vector Byte kExtraBufSize) :
    (construct initialSize garbage).contents = [] := by
  simp [construct, contents]

theorem resetIndices_wellFormed {b : Buffer} (wf : b.WellFormed) :
    b.resetIndices.WellFormed := by
  obtain ⟨prepend, ordered, inside, extra⟩ := wf
  exact ⟨Nat.le_refl _, Nat.le_refl _, by simp only [resetIndices]; omega, extra⟩

@[simp] theorem resetIndices_contents (b : Buffer) : b.resetIndices.contents = [] := by
  simp [resetIndices, contents]

/-! ### Consuming -/

/-- `retrieve` keeps the invariant. -/
theorem retrieve_wellFormed {b : Buffer} (wf : b.WellFormed) (len : Nat) :
    (b.retrieve len).WellFormed := by
  obtain ⟨prepend, ordered, inside, extra⟩ := wf
  have moved :
      WellFormed { b with readerIndex := b.readerIndex + min len b.readableBytes } := by
    refine ⟨?_, ?_, inside, extra⟩ <;> simp only [readableBytes] <;> omega
  rw [retrieve]
  split
  · exact resetIndices_wellFormed moved
  · exact moved

/-- `retrieve` drops bytes at the front; asking for too many drops them all. -/
theorem retrieve_contents {b : Buffer} (wf : b.WellFormed) (len : Nat) :
    (b.retrieve len).contents = b.contents.drop len := by
  have moved :
      contents { b with readerIndex := b.readerIndex + min len b.readableBytes } =
        b.contents.drop len := by
    rw [contents, contents, Memory.window_drop, ← length_contents wf]
    exact (List.drop_eq_drop_min).symm
  rw [retrieve]
  split
  · rename_i drained
    rw [resetIndices_contents, ← moved, contents, drained, Memory.window_self]
  · exact moved

@[simp] theorem retrieveAll_contents (b : Buffer) : b.retrieveAll.contents = [] :=
  resetIndices_contents b

/-- `retrieveAsString` returns the bytes that it drops. -/
theorem retrieveAsString_result {b : Buffer} (wf : b.WellFormed) (len : Nat) :
    (b.retrieveAsString len).2 = b.contents.take len := by
  rw [retrieveAsString]
  dsimp only
  have inside : min len b.readableBytes ≤ b.writerIndex - b.readerIndex := by
    simp only [readableBytes]
    omega
  rw [Memory.window_take _ inside, ← length_contents wf]
  exact (List.take_eq_take_min).symm

theorem retrieveAsString_contents {b : Buffer} (wf : b.WellFormed) (len : Nat) :
    (b.retrieveAsString len).1.contents = b.contents.drop len := by
  rw [retrieveAsString]
  dsimp only
  rw [retrieve_contents wf, ← length_contents wf]
  exact (List.drop_eq_drop_min).symm

/-! ### Making room and appending -/

/-- `makeSpace`, called when the writable area is too short, never copies out of bounds: it grows
the vector, or it moves the readable bytes down and the prependable bytes were more than
`kCheapPrepend`. -/
theorem makeSpace_spec {b : Buffer} (wf : b.WellFormed) {len : Nat}
    (short : b.writableBytes < len) :
    ∃ b', b.makeSpace len = .ok b' ∧ b'.WellFormed ∧ b'.contents = b.contents ∧
      len ≤ b'.writableBytes := by
  obtain ⟨prepend, ordered, inside, extra⟩ := wf
  rw [makeSpace]
  split
  · refine ⟨_, rfl, ⟨prepend, ordered, ?_, extra⟩, ?_, ?_⟩
    · dsimp only
      rw [Memory.length_resize]
      omega
    · exact Memory.window_resize _ _ inside (Nat.le_add_right _ _)
    · simp only [writableBytes, Memory.length_resize]
      omega
  · rename_i room
    simp only [writableBytes, prependableBytes] at room short
    have lower : kCheapPrepend < b.readerIndex := by omega
    rw [Memory.copy_ok lower ordered inside]
    refine ⟨_, rfl, ⟨Nat.le_refl _, Nat.le_add_right _ _, ?_, extra⟩, ?_, ?_⟩
    · simp only [Memory.length_copyForward, readableBytes]
      omega
    · exact Memory.window_copy lower ordered inside
    · simp only [writableBytes, Memory.length_copyForward, readableBytes]
      omega

theorem ensureWritableSpace_spec {b : Buffer} (wf : b.WellFormed) (len : Nat) :
    ∃ b', b.ensureWritableSpace len = .ok b' ∧ b'.WellFormed ∧ b'.contents = b.contents ∧
      len ≤ b'.writableBytes := by
  rw [ensureWritableSpace]
  split
  · rename_i short
    exact makeSpace_spec wf short
  · exact ⟨b, rfl, wf, rfl, by omega⟩

/-- `append` never faults and puts the data behind the readable bytes. -/
theorem append_spec {b : Buffer} (wf : b.WellFormed) (data : List Byte) :
    ∃ b', b.append data = .ok b' ∧ b'.WellFormed ∧ b'.contents = b.contents ++ data := by
  obtain ⟨grown, grows, grownWf, same, room⟩ := ensureWritableSpace_spec wf data.length
  have fits : grown.writerIndex + data.length ≤ grown.buffer.length := by
    have := grownWf.inside
    simp only [writableBytes] at room
    omega
  obtain ⟨prepend, ordered, inside, extra⟩ := grownWf
  rw [append, grows]
  simp only [bind, Except.bind, Memory.store_ok fits]
  refine ⟨_, rfl, ?_, ?_⟩
  · refine ⟨prepend, ?_, ?_, extra⟩
    · dsimp only
      omega
    · dsimp only
      rw [Memory.length_overwrite fits]
      exact fits
  · rw [← same]
    exact Memory.window_store ordered fits

/-! ### System calls -/

/-- `readFd` with a result that the kernel can give never faults; exactly the bytes read are put
behind the readable bytes, also when they spill over into the extra array. -/
theorem readFd_spec {b : Buffer} (wf : b.WellFormed) {result : ReadResult}
    (fits : result.Fits b.readRoom) :
    ∃ b', (b.readFd result = match result with
        | .data bytes => .ok (b', .done bytes.length)
        | .failed errno => .ok (b', .failed errno)) ∧ b'.WellFormed ∧
      b'.contents = match result with
        | .data bytes => b.contents ++ bytes
        | .failed _ => b.contents := by
  cases result with
  | failed errno => exact ⟨b, rfl, wf, rfl⟩
  | data bytes =>
      have wf' := wf
      obtain ⟨prepend, ordered, inside, extra⟩ := wf
      have room : bytes.length ≤ b.writableBytes + b.extrabuf.length := by
        simp only [ReadResult.Fits, readRoom] at fits
        split at fits <;> omega
      have first : b.writerIndex + (bytes.take b.writableBytes).length ≤ b.buffer.length := by
        simp only [List.length_take, writableBytes]
        omega
      have second : 0 + (bytes.drop b.writableBytes).length ≤ b.extrabuf.length := by
        simp only [List.length_drop]
        omega
      simp only [readFd, bind, Except.bind, Memory.store_ok first, Memory.store_ok second]
      -- the state in which `handleReadResult` finds the buffer
      let filled : Buffer :=
        { b with
          buffer := Memory.overwrite b.buffer b.writerIndex (bytes.take b.writableBytes)
          extrabuf := Memory.overwrite b.extrabuf 0 (bytes.drop b.writableBytes) }
      have filledLength : filled.buffer.length = b.buffer.length :=
        Memory.length_overwrite first
      have filledExtra : filled.extrabuf.length = kExtraBufSize :=
        (Memory.length_overwrite second).trans extra
      have window : Memory.window filled.buffer filled.readerIndex
          (b.writerIndex + (bytes.take b.writableBytes).length) =
            b.contents ++ bytes.take b.writableBytes :=
        Memory.window_store ordered first
      change ∃ b', (filled.handleReadResult bytes.length b.writableBytes >>= _) = _ ∧ _
      rw [handleReadResult]
      split
      · rename_i small
        rw [List.take_of_length_le small] at window first
        exact ⟨_, rfl, ⟨prepend, Nat.le_add_right_of_le ordered,
          Nat.le_trans first (Nat.le_of_eq filledLength.symm), filledExtra⟩, window⟩
      · rename_i spilled
        have whole : b.writerIndex + (bytes.take b.writableBytes).length =
            b.buffer.length := by
          simp only [List.length_take, writableBytes] at spilled ⊢
          omega
        have fullWf : WellFormed { filled with writerIndex := filled.buffer.length } :=
          ⟨prepend, by dsimp only; rw [filledLength]; exact Nat.le_trans ordered inside,
            Nat.le_refl _, filledExtra⟩
        have spill : filled.extrabuf.take (bytes.length - b.writableBytes) =
            bytes.drop b.writableBytes := by
          change (Memory.overwrite _ _ _).take _ = _
          rw [Memory.overwrite, List.take_zero, List.nil_append]
          exact List.take_left' List.length_drop
        obtain ⟨b', appended, wfAfter, contentsAfter⟩ :=
          append_spec fullWf (filled.extrabuf.take (bytes.length - b.writableBytes))
        refine ⟨b', by rw [appended]; rfl, wfAfter, ?_⟩
        rw [contentsAfter, spill, contents]
        dsimp only
        rw [filledLength, ← whole, window, List.append_assoc, List.take_append_drop]

/-- `writeFd` with a result that the kernel can give drops exactly the accepted bytes. -/
theorem writeFd_spec {b : Buffer} (wf : b.WellFormed) {result : WriteResult}
    (fits : result.Fits b.readableBytes) :
    (b.writeFd result).1.WellFormed ∧
      (b.writeFd result).1.contents = match result with
        | .accepted n => b.contents.drop n
        | .failed _ => b.contents := by
  cases result with
  | failed errno => exact ⟨wf, rfl⟩
  | accepted n =>
      obtain ⟨prepend, ordered, inside, extra⟩ := wf
      simp only [WriteResult.Fits, readableBytes] at fits
      refine ⟨⟨?_, ?_, inside, extra⟩, Memory.window_drop _ _ _ _⟩ <;>
        simp only [writeFd] <;> omega

end Buffer

/-! ### Buffers that carry their invariant -/

/-- A buffer together with its representation invariant. -/
structure SafeBuffer where
  raw : Buffer
  wellFormed : raw.WellFormed

namespace SafeBuffer

/-- `Buffer(kInitialSize)`, with a zeroed spill array. -/
def construct : SafeBuffer :=
  ⟨.construct kInitialSize (.replicate kExtraBufSize 0), Buffer.construct_wellFormed _ _⟩

def contents (b : SafeBuffer) : List Byte := b.raw.contents

def readableBytes (b : SafeBuffer) : Nat := b.raw.readableBytes

def retrieve (b : SafeBuffer) (len : Nat) : SafeBuffer :=
  ⟨b.raw.retrieve len, Buffer.retrieve_wellFormed b.wellFormed len⟩

def append (b : SafeBuffer) (data : List Byte) : SafeBuffer :=
  match appended : b.raw.append data with
  | .ok raw => ⟨raw, by
      obtain ⟨raw', same, wf, -⟩ := Buffer.append_spec b.wellFormed data
      rw [appended, Except.ok.injEq] at same
      exact same ▸ wf⟩
  | .error _ => b

/-- `writeFd`; a result outside the contract of `::write` leaves the buffer alone. -/
def writeFd (b : SafeBuffer) (result : WriteResult) : SafeBuffer :=
  if fits : result.Fits b.readableBytes then
    ⟨(b.raw.writeFd result).1, (Buffer.writeFd_spec b.wellFormed fits).1⟩
  else b

/-- `readFd`; a result outside the contract of `::readv` leaves the buffer alone. -/
def readFd (b : SafeBuffer) (result : ReadResult) : SafeBuffer :=
  if fits : result.Fits b.raw.readRoom then
    match returned : b.raw.readFd result with
    | .ok (raw, _) => ⟨raw, by
        obtain ⟨raw', same, wf, -⟩ := Buffer.readFd_spec b.wellFormed fits
        cases result <;>
          (simp only [returned, Except.ok.injEq, Prod.mk.injEq] at same; exact same.1 ▸ wf)⟩
    | .error _ => b
  else b

theorem length_contents (b : SafeBuffer) : b.contents.length = b.readableBytes :=
  Buffer.length_contents b.wellFormed

theorem readableBytes_eq_zero_iff (b : SafeBuffer) : b.readableBytes = 0 ↔ b.contents = [] := by
  rw [← length_contents, List.length_eq_zero_iff]

@[simp] theorem construct_contents : construct.contents = [] :=
  Buffer.construct_contents _ _

@[simp] theorem retrieve_contents (b : SafeBuffer) (len : Nat) :
    (b.retrieve len).contents = b.contents.drop len :=
  Buffer.retrieve_contents b.wellFormed len

/-- The total `append` is the member function: it never takes the fault branch. -/
theorem append_raw (b : SafeBuffer) (data : List Byte) :
    b.raw.append data = .ok (b.append data).raw := by
  obtain ⟨raw, appended, -, -⟩ := Buffer.append_spec b.wellFormed data
  rw [append]
  split
  · assumption
  · simp_all

@[simp] theorem append_contents (b : SafeBuffer) (data : List Byte) :
    (b.append data).contents = b.contents ++ data := by
  obtain ⟨raw, appended, -, grown⟩ := Buffer.append_spec b.wellFormed data
  rw [append_raw, Except.ok.injEq] at appended
  rw [contents, appended, grown, contents]

theorem writeFd_accepted (b : SafeBuffer) {n : Nat} (fits : n ≤ b.readableBytes) :
    (b.writeFd (.accepted n)).contents = b.contents.drop n := by
  have fits : (WriteResult.accepted n).Fits b.readableBytes := fits
  rw [writeFd, dif_pos fits]
  exact (Buffer.writeFd_spec b.wellFormed fits).2

@[simp] theorem writeFd_failed (b : SafeBuffer) (errno : Errno) :
    b.writeFd (.failed errno) = b := by
  have fits : (WriteResult.failed errno).Fits b.readableBytes := trivial
  rw [writeFd, dif_pos fits]
  rfl

/-- The spill array alone has room for `kExtraBufSize` bytes. -/
theorem kExtraBufSize_le_readRoom (b : SafeBuffer) : kExtraBufSize ≤ b.raw.readRoom := by
  have extra : b.raw.extrabuf.length = kExtraBufSize := b.wellFormed.extra
  rw [Buffer.readRoom]
  split
  · rw [extra]
    exact Nat.le_add_left _ _
  · rename_i enough
    exact extra ▸ Nat.le_of_not_lt enough

/-- The total `readFd` is the member function on every result that `::readv` can give. -/
theorem readFd_raw (b : SafeBuffer) {result : ReadResult} (fits : result.Fits b.raw.readRoom) :
    ∃ outcome, b.raw.readFd result = .ok ((b.readFd result).raw, outcome) := by
  obtain ⟨raw, returned, -, -⟩ := Buffer.readFd_spec b.wellFormed fits
  rw [readFd, dif_pos fits]
  split
  · exact ⟨_, by assumption⟩
  · cases result <;> simp_all

end SafeBuffer

end EduMuduo

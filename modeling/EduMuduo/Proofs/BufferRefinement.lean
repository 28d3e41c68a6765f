/-
Module: EduMuduo.Proofs.BufferRefinement
Layer: Proofs
Purpose: The two-index buffer refines the byte queue.  One call of a well-formed buffer is one
  operation of the queue on its readable bytes, with the same reply and without a faulting copy;
  sequences of calls follow by induction.
Imports: EduMuduo.Core.SafeBuffer, EduMuduo.Spec.ByteQueue
Trusted boundary: none
Main exports: Buffer.perform_refines, Buffer.run_refines, buffer_refines_byteQueue
-/
import EduMuduo.Core.SafeBuffer
import EduMuduo.Spec.ByteQueue

namespace EduMuduo

namespace Buffer

/-- One call: no fault, the invariant again, and the abstract operation on the contents. -/
theorem perform_refines {b : Buffer} (wf : b.WellFormed) {call : Call} (fits : call.Fits b) :
    ∃ b' reply, b.perform call = .ok (b', reply) ∧ b'.WellFormed ∧
      ByteQueue.perform b.contents call = (b'.contents, reply) := by
  cases call with
  | append data =>
      obtain ⟨b', appended, wf', contents⟩ := append_spec wf data
      refine ⟨b', .unit, by rw [perform, appended]; rfl, wf', ?_⟩
      rw [ByteQueue.perform, ByteQueue.push, contents]
  | retrieve len =>
      refine ⟨b.retrieve len, .unit, rfl, retrieve_wellFormed wf len, ?_⟩
      rw [ByteQueue.perform, ByteQueue.pop, retrieve_contents wf]
      exact congrArg (·, _) List.drop_eq_drop_min.symm
  | retrieveAll =>
      refine ⟨b.retrieveAll, .unit, rfl, resetIndices_wellFormed wf, ?_⟩
      rw [ByteQueue.perform, retrieveAll_contents]
  | retrieveAsString len =>
      refine ⟨_, _, rfl, retrieve_wellFormed wf _, ?_⟩
      rw [ByteQueue.perform, ByteQueue.pop, retrieveAsString_contents wf,
        retrieveAsString_result wf, ← List.drop_eq_drop_min, ← List.take_eq_take_min]
  | retrieveAllAsString =>
      refine ⟨_, _, rfl, retrieve_wellFormed wf _, ?_⟩
      rw [ByteQueue.perform, ByteQueue.pop, retrieveAllAsString, retrieveAsString_contents wf,
        retrieveAsString_result wf, length_contents wf]
  | readFd result =>
      obtain ⟨b', returned, wf', contents⟩ := readFd_spec wf fits
      cases result with
      | failed errno =>
          refine ⟨b', .io (.failed errno), by rw [perform, returned]; rfl, wf', ?_⟩
          rw [ByteQueue.perform, contents]
      | data bytes =>
          refine ⟨b', .io (.done bytes.length), by rw [perform, returned]; rfl, wf', ?_⟩
          rw [ByteQueue.perform, ByteQueue.push, contents]
  | writeFd result =>
      obtain ⟨wf', contents⟩ := writeFd_spec wf (show result.Fits b.readableBytes from fits)
      refine ⟨_, _, rfl, wf', ?_⟩
      cases result with
      | failed errno => rw [ByteQueue.perform, contents]; rfl
      | accepted n => rw [ByteQueue.perform, ByteQueue.pop, contents]; rfl

/-- A sequence of calls: the replies are those of the queue and the final contents are its
contents. -/
theorem run_refines {b : Buffer} (wf : b.WellFormed) {calls : List Call}
    (admitted : b.Admits calls) :
    ∃ b' replies, b.run calls = .ok (b', replies) ∧ b'.WellFormed ∧
      ByteQueue.run b.contents calls = (b'.contents, replies) := by
  induction calls generalizing b with
  | nil => exact ⟨b, [], rfl, wf, rfl⟩
  | cons call rest inductionHypothesis =>
      obtain ⟨fits, later⟩ := admitted
      obtain ⟨middle, reply, performed, middleWf, abstract⟩ := perform_refines wf fits
      rw [performed] at later
      obtain ⟨b', replies, ran, wf', abstractRest⟩ := inductionHypothesis middleWf later
      refine ⟨b', reply :: replies, ?_, wf', ?_⟩
      · simp only [run, performed, ran, bind, Except.bind]
      · simp only [ByteQueue.run, abstract, abstractRest]

end Buffer

/-- The buffer refines a FIFO byte queue: from any initial size and for every sequence of calls
whose kernel results fit, no copy faults, all replies are those of the queue, the bytes in
`[readerIndex_, writerIndex_)` are the contents of the queue, and the indices stay ordered. -/
theorem buffer_refines_byteQueue (initialSize : Nat) (garbage : Vector Byte kExtraBufSize)
    (calls : List Buffer.Call)
    (admitted : (Buffer.construct initialSize garbage).Admits calls) :
    ∃ b replies, (Buffer.construct initialSize garbage).run calls = .ok (b, replies) ∧
      ByteQueue.run [] calls = (b.contents, replies) ∧
      kCheapPrepend ≤ b.readerIndex ∧ b.readerIndex ≤ b.writerIndex ∧
      b.writerIndex ≤ b.buffer.length := by
  obtain ⟨b, replies, ran, wf, abstract⟩ :=
    Buffer.run_refines (Buffer.construct_wellFormed initialSize garbage) admitted
  rw [Buffer.construct_contents] at abstract
  exact ⟨b, replies, ran, abstract, wf.prepend, wf.ordered, wf.inside⟩

/-- The refinement at a run that fills the vector, writes a part and compacts. -/
theorem buffer_refines_byteQueue_compacting :
    ∃ b replies,
      (Buffer.construct 4 (.replicate kExtraBufSize 0)).run
        [.append [1, 2, 3, 4], .writeFd (.accepted 2), .append [5, 6], .retrieveAsString 9] =
          .ok (b, replies) ∧
      ByteQueue.run []
        [.append [1, 2, 3, 4], .writeFd (.accepted 2), .append [5, 6], .retrieveAsString 9] =
          (b.contents, replies) ∧
      kCheapPrepend ≤ b.readerIndex ∧ b.readerIndex ≤ b.writerIndex ∧
      b.writerIndex ≤ b.buffer.length :=
  buffer_refines_byteQueue 4 (.replicate kExtraBufSize 0) _ (by decide)

end EduMuduo

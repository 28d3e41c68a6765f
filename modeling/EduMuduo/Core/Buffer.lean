/-
Module: EduMuduo.Core.Buffer
Layer: Core
Purpose: The two-index byte buffer, function by function.  `std::vector<char>` and the spill array
  are lists of bytes and every copy goes through the checked primitives of `Library.Memory`, so a
  copy outside the vector would surface as a fault.  Sizes and indices are natural numbers; the
  results hold for sizes that do not overflow `size_t`.  A system call is modelled by the result
  that the kernel chose.
Imports: EduMuduo.Library.Memory
Trusted boundary: human-reviewed model
Main exports: Buffer, Buffer.append, Buffer.retrieve, Buffer.readFd, Buffer.writeFd, Buffer.Call,
  Buffer.perform, Buffer.run
-/
import EduMuduo.Library.Memory

namespace EduMuduo

open Library
open Library.Memory (Fault)

abbrev Byte := UInt8

/-- Value of `errno` after a failed call. -/
abbrev Errno := Nat

/-- What `::readv` or `::read` returned.  `data []` is the end of the stream. -/
inductive ReadResult where
  | data (bytes : List Byte)
  | failed (errno : Errno)
deriving Repr, DecidableEq

/-- What `::write` returned: how many of the offered bytes were accepted, or a failure. -/
inductive WriteResult where
  | accepted (count : Nat)
  | failed (errno : Errno)
deriving Repr, DecidableEq

/-- A write never accepts more than it was offered. -/
def WriteResult.Fits (offered : Nat) : WriteResult → Prop
  | .accepted count => count ≤ offered
  | .failed _ => True

instance (offered : Nat) : ∀ result : WriteResult, Decidable (result.Fits offered)
  | .accepted count => inferInstanceAs (Decidable (count ≤ offered))
  | .failed _ => inferInstanceAs (Decidable True)

/-- A read never returns more than the vector has room for. -/
def ReadResult.Fits (room : Nat) : ReadResult → Prop
  | .data bytes => bytes.length ≤ room
  | .failed _ => True

instance (room : Nat) : ∀ result : ReadResult, Decidable (result.Fits room)
  | .data bytes => inferInstanceAs (Decidable (bytes.length ≤ room))
  | .failed _ => inferInstanceAs (Decidable True)

/-- Return value of `readFd` and `writeFd`: the `ssize_t` when it is not negative, or `-1` together
with the value assigned to `ec`. -/
inductive IoOutcome where
  | done (count : Nat)
  | failed (errno : Errno)
deriving Repr, DecidableEq

def kCheapPrepend : Nat := 8
def kInitialSize : Nat := 1024
def kExtraBufSize : Nat := 65536

structure Buffer where
  extrabuf : List Byte
  buffer : List Byte
  readerIndex : Nat
  writerIndex : Nat
deriving Repr, DecidableEq

namespace Buffer

/-- The constructor.  `extrabuf_` has no initializer, so its bytes are arbitrary. -/
def construct (initialSize : Nat) (garbage : Vector Byte kExtraBufSize) : Buffer where
  extrabuf := garbage.toList
  buffer := List.replicate (kCheapPrepend + initialSize) 0
  readerIndex := kCheapPrepend
  writerIndex := kCheapPrepend

def readableBytes (b : Buffer) : Nat := b.writerIndex - b.readerIndex
def writableBytes (b : Buffer) : Nat := b.buffer.length - b.writerIndex
def prependableBytes (b : Buffer) : Nat := b.readerIndex

/-- The bytes in `[readerIndex_, writerIndex_)`, the ones `peek` points at. -/
def contents (b : Buffer) : List Byte :=
  Memory.window b.buffer b.readerIndex b.writerIndex

def resetIndices (b : Buffer) : Buffer :=
  { b with readerIndex := kCheapPrepend, writerIndex := kCheapPrepend }

def retrieve (b : Buffer) (len : Nat) : Buffer :=
  let moved := { b with readerIndex := b.readerIndex + min len b.readableBytes }
  if moved.readerIndex = moved.writerIndex then moved.resetIndices else moved

def retrieveAll (b : Buffer) : Buffer := b.resetIndices

def retrieveAsString (b : Buffer) (len : Nat) : Buffer × List Byte :=
  let len := min len b.readableBytes
  let result := Memory.window b.buffer b.readerIndex (b.readerIndex + len)
  (b.retrieve len, result)

def retrieveAllAsString (b : Buffer) : Buffer × List Byte :=
  b.retrieveAsString b.readableBytes

/-- Grow the vector, or move the readable bytes to the front of it. -/
def makeSpace (b : Buffer) (len : Nat) : Except Fault Buffer :=
  if b.writableBytes + b.prependableBytes < len + kCheapPrepend then
    .ok { b with buffer := Memory.resize b.buffer (b.writerIndex + len) 0 }
  else do
    let readable := b.readableBytes
    let buffer ← Memory.copy b.buffer b.readerIndex b.writerIndex kCheapPrepend
    .ok { b with
      buffer := buffer
      readerIndex := kCheapPrepend
      writerIndex := kCheapPrepend + readable }

def ensureWritableSpace (b : Buffer) (len : Nat) : Except Fault Buffer :=
  if b.writableBytes < len then b.makeSpace len else .ok b

def append (b : Buffer) (data : List Byte) : Except Fault Buffer := do
  let b ← b.ensureWritableSpace data.length
  let buffer ← Memory.store b.buffer b.writerIndex data
  .ok { b with buffer := buffer, writerIndex := b.writerIndex + data.length }

def handleReadResult (b : Buffer) (n writable : Nat) : Except Fault Buffer :=
  if n ≤ writable then .ok { b with writerIndex := b.writerIndex + n }
  else append { b with writerIndex := b.buffer.length } (b.extrabuf.take (n - writable))

/-- Total length of the `iovec`s that `readFd` passes: the writable area, and the spill array when
the writable area is shorter than it. -/
def readRoom (b : Buffer) : Nat :=
  if b.writableBytes < b.extrabuf.length then b.writableBytes + b.extrabuf.length
  else b.writableBytes

/-- `::readv` scatters the bytes over the writable area and then over the spill array. -/
def readFd (b : Buffer) : ReadResult → Except Fault (Buffer × IoOutcome)
  | .failed errno => .ok (b, .failed errno)
  | .data bytes => do
      let writable := b.writableBytes
      let buffer ← Memory.store b.buffer b.writerIndex (bytes.take writable)
      let extrabuf ← Memory.store b.extrabuf 0 (bytes.drop writable)
      let b ← handleReadResult { b with buffer := buffer, extrabuf := extrabuf }
        bytes.length writable
      .ok (b, .done bytes.length)

/-- `::write` is offered the readable bytes.  The index moves, but it is not reset. -/
def writeFd (b : Buffer) : WriteResult → Buffer × IoOutcome
  | .failed errno => (b, .failed errno)
  | .accepted n => ({ b with readerIndex := b.readerIndex + n }, .done n)

/-! ### The public interface as one type of calls -/

/-- A call of a public member function, with the kernel's part in it. -/
inductive Call where
  | append (data : List Byte)
  | retrieve (len : Nat)
  | retrieveAll
  | retrieveAsString (len : Nat)
  | retrieveAllAsString
  | readFd (result : ReadResult)
  | writeFd (result : WriteResult)
deriving Repr, DecidableEq

/-- What the caller gets back. -/
inductive Reply where
  | unit
  | string (bytes : List Byte)
  | io (outcome : IoOutcome)
deriving Repr, DecidableEq

/-- The kernel's results are ones that `readv` and `write` can give for the areas offered. -/
def Call.Fits (b : Buffer) : Call → Prop
  | .readFd result => result.Fits b.readRoom
  | .writeFd result => result.Fits b.readableBytes
  | _ => True

instance (b : Buffer) : ∀ call : Call, Decidable (call.Fits b)
  | .readFd result => inferInstanceAs (Decidable (result.Fits b.readRoom))
  | .writeFd result => inferInstanceAs (Decidable (result.Fits b.readableBytes))
  | .append _ | .retrieve _ | .retrieveAll | .retrieveAsString _ | .retrieveAllAsString =>
      inferInstanceAs (Decidable True)

def perform (b : Buffer) : Call → Except Fault (Buffer × Reply)
  | .append data => do
      let b ← b.append data
      .ok (b, .unit)
  | .retrieve len => .ok (b.retrieve len, .unit)
  | .retrieveAll => .ok (b.retrieveAll, .unit)
  | .retrieveAsString len =>
      .ok ((b.retrieveAsString len).1, .string (b.retrieveAsString len).2)
  | .retrieveAllAsString => .ok (b.retrieveAllAsString.1, .string b.retrieveAllAsString.2)
  | .readFd result => do
      let (b, outcome) ← b.readFd result
      .ok (b, .io outcome)
  | .writeFd result => .ok ((b.writeFd result).1, .io (b.writeFd result).2)

/-- A sequence of calls, with all replies. -/
def run (b : Buffer) : List Call → Except Fault (Buffer × List Reply)
  | [] => .ok (b, [])
  | call :: rest => do
      let (b, reply) ← b.perform call
      let (b, replies) ← run b rest
      .ok (b, reply :: replies)

/-- In the sequence every kernel result fits the buffer it meets. -/
def Admits (b : Buffer) : List Call → Prop
  | [] => True
  | call :: rest =>
      call.Fits b ∧
        match b.perform call with
        | .ok (b', _) => Admits b' rest
        | .error _ => True

instance decidableAdmits : ∀ (b : Buffer) (calls : List Call), Decidable (b.Admits calls)
  | _, [] => inferInstanceAs (Decidable True)
  | b, call :: rest =>
      have : Decidable (match b.perform call with
          | .ok (b', _) => Admits b' rest
          | .error _ => True) :=
        match b.perform call with
        | .ok (b', _) => decidableAdmits b' rest
        | .error _ => inferInstanceAs (Decidable True)
      inferInstanceAs (Decidable (_ ∧ _))

end Buffer

end EduMuduo

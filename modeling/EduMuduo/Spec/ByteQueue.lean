/-
Module: EduMuduo.Spec.ByteQueue
Layer: Spec
Purpose: What the byte buffer is for: a plain first-in first-out queue of bytes.  Appends and
  successful reads push at the back, `retrieve` pops at most what is there, a successful write
  pops what the kernel accepted, and failed system calls change nothing.  No index, no vector and
  no spill array appear here.
Imports: EduMuduo.Core.Buffer (the types of calls and replies)
Trusted boundary: human-reviewed spec
Main exports: ByteQueue, ByteQueue.perform, ByteQueue.run
-/
import EduMuduo.Core.Buffer

namespace EduMuduo

/-- Oldest byte first. -/
abbrev ByteQueue := List Byte

namespace ByteQueue

def push (q : ByteQueue) (data : List Byte) : ByteQueue := q ++ data

/-- The queue without its `n` oldest bytes, and those bytes. -/
def pop (q : ByteQueue) (n : Nat) : ByteQueue × List Byte := (q.drop n, q.take n)

/-- The abstract effect and reply of every call of the buffer's interface. -/
def perform (q : ByteQueue) : Buffer.Call → ByteQueue × Buffer.Reply
  | .append data => (q.push data, .unit)
  | .retrieve len => ((q.pop (min len q.length)).1, .unit)
  | .retrieveAll => ([], .unit)
  | .retrieveAsString len =>
      ((q.pop (min len q.length)).1, .string (q.pop (min len q.length)).2)
  | .retrieveAllAsString => ((q.pop q.length).1, .string (q.pop q.length).2)
  | .readFd (.data bytes) => (q.push bytes, .io (.done bytes.length))
  | .readFd (.failed errno) => (q, .io (.failed errno))
  | .writeFd (.accepted n) => ((q.pop n).1, .io (.done n))
  | .writeFd (.failed errno) => (q, .io (.failed errno))

def run (q : ByteQueue) : List Buffer.Call → ByteQueue × List Buffer.Reply
  | [] => (q, [])
  | call :: rest =>
      let (q, reply) := q.perform call
      let (q, replies) := run q rest
      (q, reply :: replies)

end ByteQueue

end EduMuduo

import MiniC.Heap
import MiniC.WorkRecord

/-!
What a running program acts on besides its own variables: the heap, the output
sink and the work record of its host.

A sink hands the output to a writer of the host, which may take or refuse it, and
keeps a log of everything it has tried.
-/

namespace MiniC

namespace Writer

inductive Answer where
  | taken
  /-- Of the bytes so many are kept, counted from the first. -/
  | refused (kept : Nat) (reason : String)

def Answer.reason? : Answer → Option String
  | taken => none
  | refused _ reason => some reason

/-- Bytes that were offered, and the answer to them. -/
structure Attempt where
  bytes : ByteArray
  answer : Answer

def Attempt.kept (attempt : Attempt) : ByteArray :=
  match attempt.answer with
  | .taken => attempt.bytes
  | .refused count _ => attempt.bytes.extract 0 count

/-- All attempts in order, and the bytes that were kept of them. -/
structure Log where
  attempts : Array Attempt
  written : ByteArray

def Log.empty : Log := ⟨#[], .empty⟩

def Log.add (log : Log) (attempt : Attempt) : Log :=
  ⟨log.attempts.push attempt, log.written ++ attempt.kept⟩

end Writer

/-- Answers to bytes that are offered, after all that has been tried before. -/
structure Writer where
  answer : Writer.Log → ByteArray → Writer.Answer

namespace Writer

def unlimited : Writer := ⟨fun _ _ => .taken⟩

/-- Refuses what would exceed a limit, and keeps nothing of it. -/
def limited (limit : Nat) : Writer :=
  ⟨fun log bytes =>
    if log.written.size + bytes.size ≤ limit then .taken else .refused 0 "sink full"⟩

instance : Coe (Option Nat) Writer := ⟨fun limit? => limit?.elim unlimited limited⟩

end Writer

structure Sink where
  writer : Writer
  /-- Whether a flush after the run is refused. -/
  failsFlush : Bool
  log : Writer.Log

namespace Sink

def unlimited : Sink := ⟨.unlimited, false, .empty⟩

def written (sink : Sink) : ByteArray := sink.log.written

/-- The sink after a write, and why it was refused, if it was. Writing nothing is not even tried. -/
def write (sink : Sink) (bytes : ByteArray) : Sink × Option String :=
  if bytes.size = 0 then (sink, none)
  else
    let ⟨writer, failsFlush, log⟩ := sink
    let answer := writer.answer log bytes
    (⟨writer, failsFlush, log.add ⟨bytes, answer⟩⟩, answer.reason?)

end Sink

structure World where
  heap : Heap
  sink : Sink
  /-- Absent when the host supplied none. -/
  record? : Option WorkRecord

end MiniC

/-!
# Sinks

Where bytes go that an operation gives out. A sink may be full: it refuses a write that would take it
over its limit, and from then on every write.
-/

namespace ImageTransfer

/-- A place to write to. -/
structure Sink where
  /-- What was written, write by write. -/
  writes : Array (List UInt8)
  /-- How many bytes were written. -/
  size : Nat
  /-- How many bytes it takes, if there is a limit. -/
  limit : Option Nat
  /-- What a refused write fails with. -/
  refusal : String
  /-- Whether it has refused a write. -/
  isFull : Bool

namespace Sink

/-- A sink before the first write. -/
def empty (limit : Option Nat) (refusal : String) : Sink := ⟨#[], 0, limit, refusal, false⟩

/-- A sink that takes everything, before the first write. -/
def unlimited : Sink := empty none ""

/-- Everything that was written. -/
def bytes (s : Sink) : List UInt8 := s.writes.toList.flatten

/-- Whether a write is refused. -/
def refuses (s : Sink) (piece : List UInt8) : Bool :=
  s.isFull || s.limit.any (· < s.size + piece.length)

/-- A write, which may be refused. -/
def write (s : Sink) (piece : List UInt8) : Sink :=
  if s.refuses piece then { s with isFull := true }
  else { s with writes := s.writes.push piece, size := s.size + piece.length }

/-- **A write adds its bytes or nothing.** -/
theorem bytes_write (s : Sink) (piece : List UInt8) :
    (s.write piece).bytes = if s.refuses piece then s.bytes else s.bytes ++ piece := by
  unfold write bytes
  split <;> simp

end Sink

end ImageTransfer

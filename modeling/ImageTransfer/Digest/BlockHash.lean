/-!
# Hash functions over fixed-size blocks

All hash functions of this library absorb a message block by block. A message is followed by padding
that depends only on its length and fills the last block; the blocks are absorbed in order, and the
final state is written out.

`BlockHash.hash` says this of a whole message. `Absorbed` does the same for a message that arrives
in pieces: it keeps the bytes of the block that is not yet full.
-/

namespace ImageTransfer.Digest

/-- A hash function that absorbs blocks. -/
structure BlockHash where
  /-- What is carried from block to block. -/
  State : Type
  /-- How many bytes a block has. -/
  blockSize : Nat
  /-- A block is never empty. -/
  blockSize_pos : 0 < blockSize
  /-- The state before the first block. -/
  start : State
  /-- The state after one more block. -/
  absorb : State → List UInt8 → State
  /-- What follows a message of the given length. -/
  padding : Nat → List UInt8
  /-- The hash that a final state stands for. -/
  output : State → List UInt8

/-- The most common size of a block is one. -/
theorem sixtyFour_pos : 0 < 64 := by decide

namespace BlockHash

/-- Absorbs every full block of a list of bytes; bytes after the last full block are ignored. -/
def absorbBlocks (h : BlockHash) (s : h.State) (bytes : List UInt8) : h.State :=
  let block := bytes.take h.blockSize
  if block.length < h.blockSize then s
  else h.absorbBlocks (h.absorb s block) (bytes.drop h.blockSize)
termination_by bytes.length
decreasing_by
  have := h.blockSize_pos
  rename_i full
  simp only [block, List.length_take] at full
  simp only [List.length_drop]
  omega

/-- The hash of a whole message. -/
def hash (h : BlockHash) (message : List UInt8) : List UInt8 :=
  h.output (h.absorbBlocks h.start (message ++ h.padding message.length))

end BlockHash

/-- A message that has been absorbed as far as its blocks are full. -/
structure Absorbed (h : BlockHash) where
  /-- The state after the full blocks. -/
  state : h.State
  /-- The bytes after the last full block. -/
  pending : Array UInt8
  /-- How many bytes the message has so far. -/
  size : Nat

namespace Absorbed

variable {h : BlockHash}

/-- Nothing absorbed yet. -/
def empty (h : BlockHash) : Absorbed h := ⟨h.start, #[], 0⟩

/-- One more byte: the block it fills is absorbed. -/
def push (a : Absorbed h) (b : UInt8) : Absorbed h :=
  let pending := a.pending.push b
  if pending.size = h.blockSize then ⟨h.absorb a.state pending.toList, #[], a.size + 1⟩
  else ⟨a.state, pending, a.size + 1⟩

/-- A further piece of the message. -/
def append (a : Absorbed h) (bytes : List UInt8) : Absorbed h := bytes.foldl push a

/-- The hash of what has been absorbed, as if the message ended here. -/
def hash (a : Absorbed h) : List UInt8 :=
  h.output (h.absorbBlocks a.state (a.pending.toList ++ h.padding a.size))

/-- Pieces may be joined before they are absorbed. -/
theorem append_append (a : Absorbed h) (xs ys : List UInt8) :
    a.append (xs ++ ys) = (a.append xs).append ys :=
  List.foldl_append

end Absorbed

end ImageTransfer.Digest

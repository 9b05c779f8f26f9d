/-!
# Bits of zstd blocks

Descriptions of tables are read from the first bit of the first byte on. Everything coded is read
from the end: the last byte marks by its highest bit where the bits begin, and they go back to the
first byte. Beyond the end, either way, there are zeros.
-/

namespace ImageTransfer.Compression.Zstd

/-- The number that some bytes from an index on denote, least significant first. -/
def wordAt (bytes : Array UInt8) (index : Nat) : Nat → Nat
  | 0 => 0
  | count + 1 => (bytes.getD index 0).toNat + 256 * wordAt bytes (index + 1) count

/-- The number that `width` bits from a bit on denote. -/
def bitsAt (bytes : Array UInt8) (start width : Nat) : Nat :=
  wordAt bytes (start / 8) ((start % 8 + width + 7) / 8) / Nat.pow 2 (start % 8) % Nat.pow 2 width

/-- Bits that are read from the end. -/
structure BackwardBits where
  bytes : Array UInt8
  /-- How many bits have not been read. -/
  left : Nat

namespace BackwardBits

/-- The bits before the highest bit of the last byte, which has to be there. -/
def ofBytes? (bytes : Array UInt8) : Option BackwardBits :=
  match bytes.back? with
  | none => none
  | some b => if b = 0 then none else some ⟨bytes, 8 * (bytes.size - 1) + b.toNat.log2⟩

/-- The next `width` bits. -/
def peek (b : BackwardBits) (width : Nat) : Nat :=
  if width ≤ b.left then bitsAt b.bytes (b.left - width) width
  else bitsAt b.bytes 0 b.left * Nat.pow 2 (width - b.left)

/-- Goes past `width` bits, if there are so many. -/
def skip? (b : BackwardBits) (width : Nat) : Option BackwardBits :=
  if width ≤ b.left then some { b with left := b.left - width } else none

/-- Reads `width` bits. -/
def take? (b : BackwardBits) (width : Nat) : Option (Nat × BackwardBits) :=
  (b.skip? width).map fun rest => (b.peek width, rest)

end BackwardBits

end ImageTransfer.Compression.Zstd

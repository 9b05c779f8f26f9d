/-!
# Words and bytes

How the words that hash functions and checksums compute with are read from bytes and written as
bytes, in both orders.
-/

namespace ImageTransfer

/-- The number that bytes denote, most significant byte first. -/
def natOfBytesBE (bytes : List UInt8) : Nat := bytes.foldl (fun n b => n * 256 + b.toNat) 0

/-- The number that bytes denote, least significant byte first. -/
def natOfBytesLE (bytes : List UInt8) : Nat := bytes.foldr (fun b n => b.toNat + 256 * n) 0

/-- The last `count` bytes of a number, least significant byte first. -/
def bytesLE : Nat → Nat → List UInt8
  | 0, _ => []
  | count + 1, n => UInt8.ofNat n :: bytesLE count (n / 256)

/-- The last `count` bytes of a number, most significant byte first. -/
def bytesBE (count n : Nat) : List UInt8 := (bytesLE count n).reverse

@[simp] theorem length_bytesLE (count n : Nat) : (bytesLE count n).length = count := by
  induction count generalizing n with
  | zero => rfl
  | succ k ih => simp [bytesLE, ih]

@[simp] theorem length_bytesBE (count n : Nat) : (bytesBE count n).length = count := by
  simp [bytesBE]

/-- **A number that fits reads back** from its bytes, least significant first. -/
theorem natOfBytesLE_bytesLE {count n : Nat} (h : n < Nat.pow 256 count) :
    natOfBytesLE (bytesLE count n) = n := by
  induction count generalizing n with
  | zero => simp at h; simp [bytesLE, natOfBytesLE, h]
  | succ k ih =>
    have hk : n / 256 < Nat.pow 256 k := by
      rw [Nat.div_lt_iff_lt_mul (by decide)]; exact h
    have := ih hk
    simp only [natOfBytesLE] at this
    simp only [natOfBytesLE, bytesLE, List.foldr_cons, this, UInt8.toNat_ofNat']
    omega

/-- A list cut into groups of `size` items; items after the last full group are dropped. -/
def groupsOf {α : Type} (size : Nat) (xs : List α) : List (List α) :=
  let group := xs.take size
  if size = 0 ∨ group.length < size then []
  else group :: groupsOf size (xs.drop size)
termination_by xs.length
decreasing_by
  rename_i h
  simp only [group, not_or, Nat.not_lt, List.length_take] at h
  simp only [List.length_drop]
  omega

/-- Bytes as words of 32 bits, most significant byte first. -/
def words32BE (bytes : List UInt8) : List UInt32 :=
  (groupsOf 4 bytes).map fun g => UInt32.ofNat (natOfBytesBE g)

/-- Bytes as words of 32 bits, least significant byte first. -/
def words32LE (bytes : List UInt8) : List UInt32 :=
  (groupsOf 4 bytes).map fun g => UInt32.ofNat (natOfBytesLE g)

/-- Bytes as words of 64 bits, most significant byte first. -/
def words64BE (bytes : List UInt8) : List UInt64 :=
  (groupsOf 8 bytes).map fun g => UInt64.ofNat (natOfBytesBE g)

/-- Bytes as words of 64 bits, least significant byte first. -/
def words64LE (bytes : List UInt8) : List UInt64 :=
  (groupsOf 8 bytes).map fun g => UInt64.ofNat (natOfBytesLE g)

/-- A word turned left by `k` bits, where `0 < k < 32`. -/
def rotateLeft32 (x k : UInt32) : UInt32 := (x <<< k) ||| (x >>> (32 - k))

/-- A word turned right by `k` bits, where `0 < k < 32`. -/
def rotateRight32 (x k : UInt32) : UInt32 := (x >>> k) ||| (x <<< (32 - k))

/-- A word turned left by `k` bits, where `0 < k < 64`. -/
def rotateLeft64 (x k : UInt64) : UInt64 := (x <<< k) ||| (x >>> (64 - k))

/-- A word turned right by `k` bits, where `0 < k < 64`. -/
def rotateRight64 (x k : UInt64) : UInt64 := (x >>> k) ||| (x <<< (64 - k))

end ImageTransfer

import ImageTransfer.Digest.BlockHash
import ImageTransfer.Digest.Word

/-!
# The SHA-3 family

All members stir one state of five by five words of 64 bits. A block is mixed into the first words of
the state, of which as many are left alone as twice the hash is long, and then the state is permuted.
-/

namespace ImageTransfer.Digest

namespace Sha3

/-- The words of the state, row by row. -/
abbrev State := Array UInt64

/-- How many words the state has. -/
def stateSize : Nat := 25

/-- The constants of the rounds. -/
def roundConstants : List UInt64 :=
  [0x0000000000000001, 0x0000000000008082, 0x800000000000808a, 0x8000000080008000,
    0x000000000000808b, 0x0000000080000001, 0x8000000080008081, 0x8000000000008009,
    0x000000000000008a, 0x0000000000000088, 0x0000000080008009, 0x000000008000000a,
    0x000000008000808b, 0x800000000000008b, 0x8000000000008089, 0x8000000000008003,
    0x8000000000008002, 0x8000000000000080, 0x000000000000800a, 0x800000008000000a,
    0x8000000080008081, 0x8000000000008080, 0x0000000080000001, 0x8000000080008008]

/-- By how many bits each word is turned. -/
def turns : Array UInt64 :=
  #[0, 1, 62, 28, 27, 36, 44, 6, 55, 20, 3, 10, 43, 25, 39, 41, 45, 15, 21, 8, 18, 2, 61, 56, 14]

/-- A state whose words are given by their column and row. -/
def build (word : Nat → Nat → UInt64) : State :=
  ((List.range stateSize).map fun i => word (i % 5) (i / 5)).toArray

/-- The word of a column and a row. -/
def wordAt (s : State) (x y : Nat) : UInt64 := s.getD (x + 5 * y) 0

/-- The sum of a column. -/
def columnSum (s : State) (x : Nat) : UInt64 :=
  (List.range 5).foldl (fun sum y => sum ^^^ wordAt s x y) 0

/-- Adds to each word the columns on either side of it. -/
def addColumns (s : State) : State :=
  let sums := (List.range 5).map (columnSum s)
  let sum (x : Nat) : UInt64 := sums.getD (x % 5) 0
  build fun x y => wordAt s x y ^^^ sum (x + 4) ^^^ rotateLeft64 (sum (x + 1)) 1

/-- Turns each word and puts it in another place. -/
def scatter (s : State) : State :=
  build fun x y =>
    let column := (x + 3 * y) % 5
    let turn := turns.getD (column + 5 * x) 0
    if turn = 0 then wordAt s column x else rotateLeft64 (wordAt s column x) turn

/-- Combines each word with the next two of its row. -/
def combineRows (s : State) : State :=
  build fun x y => wordAt s x y ^^^ (~~~ wordAt s ((x + 1) % 5) y &&& wordAt s ((x + 2) % 5) y)

/-- One round. -/
def round (s : State) (constant : UInt64) : State :=
  (combineRows (scatter (addColumns s))).modify 0 (· ^^^ constant)

/-- All rounds. -/
def permute (s : State) : State := roundConstants.foldl round s

/-- Mixes a block into a state. -/
def absorb (s : State) (block : List UInt8) : State :=
  let words := (words64LE block).toArray
  permute (s.mapIdx fun i x => x ^^^ words.getD i 0)

/-- A mark that tells the family, then zeros, with the last bit set. -/
def padding (blockSize size : Nat) : List UInt8 :=
  let missing := blockSize - size % blockSize
  if missing = 1 then [0x86] else 0x06 :: (List.replicate (missing - 2) 0 ++ [0x80])

/-- The member whose hash has `size` bytes. -/
def member (size : Nat) (h : 2 * size < 200) : BlockHash where
  State := State
  blockSize := 200 - 2 * size
  blockSize_pos := by omega
  start := build fun _ _ => 0
  absorb := absorb
  padding := padding (200 - 2 * size)
  output s := (s.toList.flatMap fun x => bytesLE 8 x.toNat).take size

end Sha3

/-- SHA3-224. -/
def sha3Of224 : BlockHash := Sha3.member 28 (by decide)

/-- SHA3-256. -/
def sha3Of256 : BlockHash := Sha3.member 32 (by decide)

/-- SHA3-384. -/
def sha3Of384 : BlockHash := Sha3.member 48 (by decide)

/-- SHA3-512. -/
def sha3Of512 : BlockHash := Sha3.member 64 (by decide)

end ImageTransfer.Digest

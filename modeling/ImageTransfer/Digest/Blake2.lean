import ImageTransfer.Digest.BlockHash
import ImageTransfer.Digest.Word

/-!
# The BLAKE2 family

BLAKE2b computes with words of 64 bits, BLAKE2s with words of 32 bits. The last block is treated
unlike the others: it is known only when the message has ended, and the length of the message goes
into it. So two blocks are held back, and what follows a message ends in a block that says how long
the message was.
-/

namespace ImageTransfer.Digest

namespace Blake2

/-- A member of the family. -/
structure Member where
  /-- How many bits a word has. -/
  width : Nat
  width_pos : 0 < width
  rounds : Nat
  /-- By how many bits words are turned in a quarter of a round. -/
  turns : Nat × Nat × Nat × Nat
  /-- Where the chain starts from. -/
  initial : List Nat

/-- The order in which a round takes the words of the block. -/
def orders : List (List Nat) :=
  [[0, 1, 2, 3, 4, 5, 6, 7, 8, 9, 10, 11, 12, 13, 14, 15],
    [14, 10, 4, 8, 9, 15, 13, 6, 1, 12, 0, 2, 11, 7, 5, 3],
    [11, 8, 12, 0, 5, 2, 15, 13, 10, 14, 3, 6, 7, 1, 9, 4],
    [7, 9, 3, 1, 13, 12, 11, 14, 2, 6, 5, 10, 4, 0, 15, 8],
    [9, 0, 5, 7, 2, 4, 10, 15, 14, 1, 11, 12, 6, 8, 3, 13],
    [2, 12, 6, 10, 0, 11, 8, 3, 4, 13, 7, 5, 15, 14, 1, 9],
    [12, 5, 1, 15, 14, 13, 4, 10, 0, 7, 6, 3, 9, 2, 8, 11],
    [13, 11, 7, 14, 12, 1, 3, 9, 5, 0, 15, 4, 8, 6, 2, 10],
    [6, 15, 14, 9, 11, 3, 0, 8, 12, 2, 13, 7, 1, 4, 10, 5],
    [10, 2, 8, 4, 7, 6, 1, 5, 15, 11, 9, 14, 3, 12, 13, 0]]

/-- The places that the quarters of a round work on: the columns, then the diagonals. -/
def quarters : List (Nat × Nat × Nat × Nat) :=
  [(0, 4, 8, 12), (1, 5, 9, 13), (2, 6, 10, 14), (3, 7, 11, 15),
    (0, 5, 10, 15), (1, 6, 11, 12), (2, 7, 8, 13), (3, 4, 9, 14)]

namespace Member

variable (m : Member)

/-- A word. -/
abbrev Word := BitVec m.width

/-- How many bytes a word has. -/
def wordBytes : Nat := (m.width + 7) / 8

/-- How many bytes a block has. -/
def blockSize : Nat := 16 * m.wordBytes

/-- The word at a place. -/
def wordAt (v : Array m.Word) (i : Nat) : m.Word := v.getD i 0

/-- Works two words of the block into four places. -/
def mix (v : Array m.Word) (place : Nat × Nat × Nat × Nat) (x y : m.Word) : Array m.Word :=
  let (ia, ib, ic, id) := place
  let (r1, r2, r3, r4) := m.turns
  let a := m.wordAt v ia + m.wordAt v ib + x
  let d := (m.wordAt v id ^^^ a).rotateRight r1
  let c := m.wordAt v ic + d
  let b := (m.wordAt v ib ^^^ c).rotateRight r2
  let a := a + b + y
  let d := (d ^^^ a).rotateRight r3
  let c := c + d
  let b := (b ^^^ c).rotateRight r4
  (((v.setIfInBounds ia a).setIfInBounds ib b).setIfInBounds ic c).setIfInBounds id d

/-- One round. -/
def round (block : Array m.Word) (v : Array m.Word) (r : Nat) : Array m.Word :=
  let order := (orders.getD (r % 10) []).toArray
  let word (i : Nat) : m.Word := m.wordAt block (order.getD i 0)
  quarters.zipIdx.foldl (fun v (place, i) => m.mix v place (word (2 * i)) (word (2 * i + 1))) v

/-- Works a block into the chain, when `count` bytes have been seen with it. -/
def compress (chain : List m.Word) (block : List UInt8) (count : Nat) (isLast : Bool) :
    List m.Word :=
  let words : Array m.Word :=
    ((groupsOf m.wordBytes block).map fun g => BitVec.ofNat m.width (natOfBytesLE g)).toArray
  let initial : List m.Word := m.initial.map (BitVec.ofNat m.width)
  let v : Array m.Word := (chain ++ initial).toArray
  let v := v.modify 12 (· ^^^ BitVec.ofNat m.width count)
  let v := v.modify 13 (· ^^^ BitVec.ofNat m.width (count / Nat.pow 2 m.width))
  let v := if isLast then v.modify 14 fun x => ~~~x else v
  let v := (List.range m.rounds).foldl (m.round words) v
  chain.zipIdx.map fun (x, i) => x ^^^ m.wordAt v i ^^^ m.wordAt v (i + 8)

/-- What is carried from block to block. -/
structure State where
  chain : List m.Word
  /-- How many bytes have been worked in. -/
  count : Nat
  /-- The blocks that are held back, the latest first. -/
  held : List (List UInt8)

/-- The state before the first block of a message whose hash will have `size` bytes. -/
def start (size : Nat) : State m :=
  let initial := m.initial.map (BitVec.ofNat m.width)
  ⟨(initial.take 1).map (· ^^^ BitVec.ofNat m.width (0x01010000 + size)) ++ initial.drop 1, 0, []⟩

/-- One more block: the one before the last two is worked in. -/
def absorb (s : State m) (block : List UInt8) : State m :=
  match s.held with
  | [last, earlier] =>
    let count := s.count + m.blockSize
    ⟨m.compress s.chain earlier count false, count, [block, last]⟩
  | held => { s with held := block :: held }

/-- Zeros up to a full block, of which there is at least one, and a block with the length. -/
def padding (size : Nat) : List UInt8 :=
  let zeros :=
    if size = 0 then m.blockSize else (m.blockSize - size % m.blockSize) % m.blockSize
  List.replicate zeros 0 ++ bytesLE m.blockSize size

/-- The hash of a state: the last block is worked in with the length of the message. -/
def output (size : Nat) (s : State m) : List UInt8 :=
  match s.held with
  | [length, last] =>
    let chain := m.compress s.chain last (natOfBytesLE length) true
    (chain.flatMap fun x => bytesLE m.wordBytes x.toNat).take size
  | _ => []

theorem blockSize_pos : 0 < m.blockSize := by
  have := m.width_pos
  unfold blockSize wordBytes
  omega

/-- The hash function with hashes of `size` bytes. -/
def hash (size : Nat) : BlockHash where
  State := State m
  blockSize := m.blockSize
  blockSize_pos := m.blockSize_pos
  start := m.start size
  absorb := m.absorb
  padding := m.padding
  output := m.output size

end Member

end Blake2

/-- BLAKE2b. -/
def blake2b : BlockHash := Blake2.Member.hash
  { width := 64
    width_pos := by decide
    rounds := 12
    turns := (32, 24, 16, 63)
    initial := [0x6a09e667f3bcc908, 0xbb67ae8584caa73b, 0x3c6ef372fe94f82b, 0xa54ff53a5f1d36f1,
      0x510e527fade682d1, 0x9b05688c2b3e6c1f, 0x1f83d9abfb41bd6b, 0x5be0cd19137e2179] } 64

/-- BLAKE2s. -/
def blake2s : BlockHash := Blake2.Member.hash
  { width := 32
    width_pos := by decide
    rounds := 10
    turns := (16, 12, 8, 7)
    initial := [0x6a09e667, 0xbb67ae85, 0x3c6ef372, 0xa54ff53a, 0x510e527f, 0x9b05688c, 0x1f83d9ab,
      0x5be0cd19] } 32

end ImageTransfer.Digest

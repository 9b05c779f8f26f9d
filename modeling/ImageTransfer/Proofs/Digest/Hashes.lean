import ImageTransfer.Digest.Algorithm
import ImageTransfer.Proofs.Digest.Blocks
import Mathlib.Data.List.Basic

/-!
# What a hash takes in, and how long it is

Padding fills the last block of a message, whichever the algorithm (`Algorithm.dvd_padded`). So a
hash takes in its message to the last byte, block by block (`Algorithm.isHashOf_iff`), and it has the
size of its algorithm, however long the message was (`Algorithm.length_hash`).

The size can be read off the way in which most of the algorithms write their last state. Two families
need an invariant of their states: SHA-3 writes as many words as its state has, and BLAKE2 writes a
hash only when two blocks are held back, which it owes to its padding.
-/

namespace ImageTransfer.Digest

/-! ## Padding -/

theorem dvd_add_missing {size : Nat} (hpos : 0 < size) (n : Nat) :
    size ∣ n + (size - n % size) % size := by
  rcases Nat.eq_zero_or_pos (n % size) with hzero | hrest
  · rw [hzero, Nat.sub_zero, Nat.mod_self, Nat.add_zero]
    exact Nat.dvd_of_mod_eq_zero hzero
  · have hlt := Nat.mod_lt n hpos
    have hn := Nat.div_add_mod n size
    refine ⟨n / size + 1, ?_⟩
    rw [Nat.mod_eq_of_lt (by omega), Nat.mul_add]
    omega

theorem dvd_paddingBE {blockSize : Nat} (hpos : 0 < blockSize) (lengthBytes n : Nat) :
    blockSize ∣ n + (paddingBE blockSize lengthBytes n).length := by
  have hfull := dvd_add_missing hpos (n + 1 + lengthBytes)
  have hlength : (paddingBE blockSize lengthBytes n).length =
      (blockSize - (n + 1 + lengthBytes) % blockSize) % blockSize + lengthBytes + 1 := by
    simp [paddingBE]
  rw [hlength]
  rwa [show n + ((blockSize - (n + 1 + lengthBytes) % blockSize) % blockSize + lengthBytes + 1) =
    n + 1 + lengthBytes + (blockSize - (n + 1 + lengthBytes) % blockSize) % blockSize by omega]

theorem Md5.dvd_padding (n : Nat) : 64 ∣ n + (Md5.padding n).length := by
  have hlength : (Md5.padding n).length = (64 - (n + 9) % 64) % 64 + 8 + 1 := by
    simp [Md5.padding]
  omega

theorem Sha3.dvd_padding {blockSize : Nat} (hpos : 0 < blockSize) (n : Nat) :
    blockSize ∣ n + (Sha3.padding blockSize n).length := by
  have hlt := Nat.mod_lt n hpos
  have hn := Nat.div_add_mod n blockSize
  have hlength : (Sha3.padding blockSize n).length = blockSize - n % blockSize := by
    unfold Sha3.padding
    dsimp only
    split
    · rename_i hone
      exact hone.symm
    · simp
      omega
  refine ⟨n / blockSize + 1, ?_⟩
  rw [hlength, Nat.mul_add]
  omega

/-- The last block is filled up, and a block with the length follows. There are never less than
two. -/
theorem Blake2.Member.length_padding (m : Blake2.Member) (n : Nat) :
    m.blockSize ∣ n + (m.padding n).length ∧ 2 * m.blockSize ≤ n + (m.padding n).length := by
  have hpos := m.blockSize_pos
  unfold Blake2.Member.padding
  rw [List.length_append, List.length_replicate, length_bytesLE, ← Nat.add_assoc]
  by_cases hn : n = 0
  · rw [if_pos hn, hn, Nat.zero_add]
    exact ⟨⟨2, by omega⟩, by omega⟩
  · rw [if_neg hn]
    have hfull := dvd_add_missing hpos n
    have hle := Nat.le_of_dvd (by omega) hfull
    exact ⟨Nat.dvd_add hfull (Nat.dvd_refl _), by omega⟩

/-- **Padding fills the last block.** -/
theorem Algorithm.dvd_padded (a : Algorithm) (n : Nat) :
    a.hash.blockSize ∣ n + (a.hash.padding n).length := by
  cases a with
  | md5 => exact Md5.dvd_padding n
  | sha1 | sha224 | sha256 => exact dvd_paddingBE sixtyFour_pos 8 n
  | sha384 | sha512 | sha512Short224 | sha512Short256 => exact dvd_paddingBE (by decide) 16 n
  | sha3Of224 | sha3Of256 | sha3Of384 | sha3Of512 => exact Sha3.dvd_padding (by decide) n
  | blake2b | blake2s => exact (Blake2.Member.length_padding _ n).1

/-- What the hash of a message is, said of the message as a whole: the message and its padding are a
row of full blocks, and these are absorbed in order. -/
def BlockHash.IsHashOf (h : BlockHash) (message hash : List UInt8) : Prop :=
  ∃ blocks : List (List UInt8), (∀ block ∈ blocks, block.length = h.blockSize) ∧
    blocks.flatten = message ++ h.padding message.length ∧
    hash = h.output (blocks.foldl h.absorb h.start)

/-- **A hash takes in its message to the last byte.** -/
theorem Algorithm.isHashOf_iff (a : Algorithm) {message hash : List UInt8} :
    a.hash.IsHashOf message hash ↔ hash = a.hash.hash message := by
  have hpos := a.hash.blockSize_pos
  have hhash : a.hash.hash message = a.hash.output ((groupsOf a.hash.blockSize
      (message ++ a.hash.padding message.length)).foldl a.hash.absorb a.hash.start) := by
    rw [BlockHash.hash, a.hash.absorbBlocks_eq_foldl]
  constructor
  · rintro ⟨blocks, hblocks, hflatten, rfl⟩
    rw [hhash, ← hflatten, groupsOf_flatten hpos hblocks]
  · rintro rfl
    have hfull : a.hash.blockSize ∣ (message ++ a.hash.padding message.length).length := by
      rw [List.length_append]
      exact a.dvd_padded message.length
    exact ⟨_, fun block hblock => length_of_mem_groupsOf hpos hblock, flatten_groupsOf hpos hfull,
      hhash⟩

/-! ## Sizes -/

/-- How many bytes a hash has. -/
def Algorithm.hashSize : Algorithm → Nat
  | md5 => 16
  | sha1 => 20
  | sha224 | sha512Short224 | sha3Of224 => 28
  | sha256 | sha512Short256 | sha3Of256 | blake2s => 32
  | sha384 | sha3Of384 => 48
  | sha512 | sha3Of512 | blake2b => 64

theorem length_flatMap_bytesLE {α : Type} (xs : List α) (value : α → Nat) (count : Nat) :
    (xs.flatMap fun x => bytesLE count (value x)).length = xs.length * count := by
  induction xs with
  | nil => exact (Nat.zero_mul count).symm
  | cons x xs ih =>
      rw [List.flatMap_cons, List.length_append, length_bytesLE, ih, List.length_cons, Nat.succ_mul,
        Nat.add_comm]

theorem Sha256.length_hash (start : Sha256.Chain) {size : Nat} (hsize : size ≤ 32)
    (message : List UInt8) : ((Sha256.member start size).hash message).length = size := by
  show (List.take size (Sha256.Chain.bytes _)).length = size
  simp [Sha256.Chain.bytes, hsize]

theorem Sha512.length_hash (start : Sha512.Chain) {size : Nat} (hsize : size ≤ 64)
    (message : List UInt8) : ((Sha512.member start size).hash message).length = size := by
  show (List.take size (Sha512.Chain.bytes _)).length = size
  simp [Sha512.Chain.bytes, hsize]

namespace Sha3

theorem size_build (word : Nat → Nat → UInt64) : (build word).size = stateSize := by
  simp [build]

theorem size_round (s : State) (constant : UInt64) : (round s constant).size = stateSize := by
  rw [round, Array.size_modify]
  exact size_build _

/-- The state keeps its size. -/
theorem size_permute {s : State} (hs : s.size = stateSize) : (permute s).size = stateSize :=
  List.foldlRecOn (motive := fun s => Array.size s = stateSize) roundConstants round hs
    fun s _ constant _ => size_round s constant

theorem size_absorb {s : State} (hs : s.size = stateSize) (block : List UInt8) :
    (absorb s block).size = stateSize := by
  refine size_permute ?_
  rw [Array.size_mapIdx, hs]

theorem length_output {size : Nat} (hsize : 2 * size < 200) {s : State}
    (hs : s.size = stateSize) : ((member size hsize).output s).length = size := by
  show (List.take size (List.flatMap _ s.toList)).length = size
  rw [List.length_take, length_flatMap_bytesLE, s.length_toList, hs]
  exact Nat.min_eq_left (by show size ≤ 25 * 8; omega)

theorem length_hash {size : Nat} (hsize : 2 * size < 200) (message : List UInt8) :
    ((member size hsize).hash message).length = size := by
  refine length_output hsize ?_
  rw [(member size hsize).absorbBlocks_eq_foldl]
  exact List.foldlRecOn (motive := fun s => Array.size s = stateSize) _ _ (size_build _)
    fun s hs block _ => size_absorb hs block

end Sha3

namespace Blake2.Member

variable {m : Member}

theorem length_compress (chain : List m.Word) (block : List UInt8) (count : Nat) (isLast : Bool) :
    (m.compress chain block count isLast).length = chain.length := by
  simp [compress]

/-- What is true of a state after that many blocks: its chain has full length, and from the second
block on two are held back. -/
structure State.Holds (s : State m) (blocks : Nat) : Prop where
  chain : s.chain.length = m.initial.length
  held : s.held.length = min 2 blocks

theorem holds_start (size : Nat) : (m.start size).Holds 0 := by
  refine ⟨?_, rfl⟩
  show (List.map _ (List.take 1 _) ++ List.drop 1 _).length = _
  rw [List.length_append, List.length_map, ← List.length_append, List.take_append_drop,
    List.length_map]

theorem State.Holds.absorb {s : State m} {blocks : Nat} (hs : s.Holds blocks)
    (block : List UInt8) : (m.absorb s block).Holds (blocks + 1) := by
  obtain ⟨hchain, hheld⟩ := hs
  unfold Member.absorb
  split
  · -- two are held back already, so one of them goes into the chain
    rename_i last earlier hpair
    rw [hpair] at hheld
    refine ⟨(length_compress _ _ _ _).trans hchain, ?_⟩
    show 2 = _
    rw [List.length_cons, List.length_cons, List.length_nil] at hheld
    omega
  · -- otherwise there are fewer than two
    rename_i hnot
    refine ⟨hchain, ?_⟩
    have hne : s.held.length ≠ 2 := fun htwo => by
      obtain ⟨last, earlier, hpair⟩ := List.length_eq_two.1 htwo
      exact hnot last earlier hpair
    show s.held.length + 1 = _
    omega

theorem State.Holds.foldl {s : State m} {count : Nat} (hs : s.Holds count)
    (blocks : List (List UInt8)) : (blocks.foldl m.absorb s).Holds (count + blocks.length) := by
  induction blocks generalizing s count with
  | nil => exact hs
  | cons block blocks ih =>
      have := ih (hs.absorb block)
      rwa [Nat.add_assoc, Nat.add_comm 1] at this

theorem length_hash {size : Nat} (hsize : size ≤ m.initial.length * m.wordBytes)
    (message : List UInt8) : ((m.hash size).hash message).length = size := by
  let blocks := groupsOf m.blockSize (message ++ m.padding message.length)
  -- the padding alone sees to it that two blocks are held back in the end
  have hblocks : 2 ≤ blocks.length := by
    rw [length_groupsOf m.blockSize_pos, List.length_append, Nat.le_div_iff_mul_le m.blockSize_pos]
    exact (m.length_padding message.length).2
  have hholds := (holds_start (m := m) size).foldl blocks
  have hheld : (blocks.foldl m.absorb (m.start size)).held.length = 2 := by
    rw [hholds.held]
    omega
  obtain ⟨length, last, hpair⟩ := List.length_eq_two.1 hheld
  have hhash : (m.hash size).hash message =
      m.output size (blocks.foldl m.absorb (m.start size)) :=
    congrArg (m.output size) ((m.hash size).absorbBlocks_eq_foldl _ _)
  rw [hhash, output, hpair]
  dsimp only
  rw [List.length_take, length_flatMap_bytesLE, length_compress, hholds.chain]
  exact Nat.min_eq_left hsize

end Blake2.Member

/-- **A hash has the size of its algorithm.** -/
theorem Algorithm.length_hash (a : Algorithm) (message : List UInt8) :
    (a.hash.hash message).length = a.hashSize := by
  cases a with
  | md5 => exact length_flatMap_bytesLE _ _ 4
  | sha1 =>
      show (List.flatMap _ _).length = 20
      simp
  | sha224 | sha256 => exact Sha256.length_hash _ (by decide) message
  | sha384 | sha512 | sha512Short224 | sha512Short256 =>
      exact Sha512.length_hash _ (by decide) message
  | sha3Of224 | sha3Of256 | sha3Of384 | sha3Of512 => exact Sha3.length_hash (by decide) message
  | blake2b | blake2s => exact Blake2.Member.length_hash (by decide) message

end ImageTransfer.Digest

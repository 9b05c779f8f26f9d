import ImageTransfer.Digest.Digester
import ImageTransfer.Proofs.Digest.Blocks
import ImageTransfer.Proofs.Text.Split

/-!
# Digests of streams

A digester that has seen a stream knows what a hash of the whole would have come to: the blocks that
are full are absorbed, and the bytes that are left wait for more (`Absorbed.Holds`). So it does not
matter in which pieces a stream came (`digest_update`).

A digest that is written is an algorithm, a colon and small hexadecimal digits, and its parts are
read off it again.
-/

namespace ImageTransfer.Digest

variable {h : BlockHash}

namespace Absorbed

/-- What has been absorbed is this message. -/
structure Holds (a : Absorbed h) (message : List UInt8) : Prop where
  size : a.size = message.length
  /-- The block that is waiting is not full. -/
  room : a.pending.size < h.blockSize
  /-- The full blocks are absorbed, and what follows them is waiting. -/
  blocks : ∃ full, message = full ++ a.pending.toList ∧ h.blockSize ∣ full.length ∧
    a.state = h.absorbBlocks h.start full

theorem holds_empty (h : BlockHash) : (empty h).Holds [] :=
  ⟨rfl, h.blockSize_pos, [], rfl, Nat.dvd_zero _, (h.absorbBlocks_nil h.start).symm⟩

theorem Holds.push {a : Absorbed h} {message : List UInt8} (ha : a.Holds message) (b : UInt8) :
    (a.push b).Holds (message ++ [b]) := by
  obtain ⟨hsize, hroom, full, hmessage, hfull, hstate⟩ := ha
  have hsize' : a.size + 1 = (message ++ [b]).length := by
    rw [hsize, List.length_append]
    rfl
  have hmessage' : message ++ [b] = full ++ (a.pending.push b).toList := by
    rw [hmessage, Array.toList_push, List.append_assoc]
  unfold Absorbed.push
  dsimp only
  split
  · -- the byte fills its block, which follows the full ones
    rename_i hfills
    have hblock : (a.pending.push b).toList.length = h.blockSize := by
      rw [Array.length_toList, hfills]
    refine ⟨hsize', h.blockSize_pos, message ++ [b], (List.append_nil _).symm, ?_, ?_⟩
    · rw [hmessage', List.length_append, hblock]
      exact Nat.dvd_add hfull (Nat.dvd_refl _)
    · rw [hmessage', h.absorbBlocks_append _ hfull, h.absorbBlocks_of_eq _ hblock, hstate]
  · rename_i hroom'
    have hpush : (a.pending.push b).size = a.pending.size + 1 := Array.size_push b
    exact ⟨hsize', show (a.pending.push b).size < h.blockSize by omega, full, hmessage', hfull,
      hstate⟩

theorem Holds.append {a : Absorbed h} {message : List UInt8} (ha : a.Holds message)
    (bytes : List UInt8) : (a.append bytes).Holds (message ++ bytes) := by
  induction bytes generalizing a message with
  | nil =>
      rw [List.append_nil]
      exact ha
  | cons b bytes ih =>
      have := ih (ha.push b)
      rwa [List.append_assoc, List.singleton_append] at this

/-- **A message that was absorbed in pieces has the hash of the whole.** -/
theorem Holds.hash_eq {a : Absorbed h} {message : List UInt8} (ha : a.Holds message) :
    a.hash = h.hash message := by
  obtain ⟨full, hmessage, hfull, hstate⟩ := ha.blocks
  rw [hash, BlockHash.hash, ha.size, hstate, ← h.absorbBlocks_append _ hfull, ← List.append_assoc,
    ← hmessage]

/-- What waits is what comes after the last full block. -/
theorem Holds.pending_eq {a : Absorbed h} {message : List UInt8} (ha : a.Holds message) :
    a.pending.toList = message.drop (h.blockSize * (message.length / h.blockSize)) := by
  obtain ⟨full, hmessage, ⟨count, hcount⟩, -⟩ := ha.blocks
  have hlength : message.length = a.pending.size + h.blockSize * count := by
    rw [hmessage, List.length_append, hcount, Array.length_toList, Nat.add_comm]
  have hquotient : message.length / h.blockSize = count := by
    rw [hlength, Nat.add_mul_div_left _ _ h.blockSize_pos, Nat.div_eq_of_lt ha.room, Nat.zero_add]
  rw [hquotient, ← hcount, hmessage, List.drop_left]

end Absorbed

namespace Digester

/-- Pieces may be joined before they are seen. -/
theorem update_update (d : Digester) (xs ys : List UInt8) :
    (d.update xs).update ys = d.update (xs ++ ys) := by
  rw [update, update, update, Absorbed.append_append]

theorem holds_update (a : Algorithm) (bytes : List UInt8) :
    ((start a).update bytes).absorbed.Holds bytes := by
  have := (Absorbed.holds_empty a.hash).append bytes
  rwa [List.nil_append] at this

/-- **The digest of a stream is the digest of its bytes.** -/
theorem digest_update (a : Algorithm) (bytes : List UInt8) :
    ((start a).update bytes).digest = ofBytes a bytes :=
  congrArg (write a) (holds_update a bytes).hash_eq

theorem size_update (a : Algorithm) (bytes : List UInt8) :
    ((start a).update bytes).size = bytes.length := (holds_update a bytes).size

end Digester

/-! ## Digests as text -/

theorem not_mem_name (a : Algorithm) : ':' ∉ a.name.toList := by cases a <;> decide

theorem splitFirst_write (a : Algorithm) (hash : List UInt8) :
    Text.splitFirst ':' (write a hash).toList = (a.name.toList, some (hexOfBytes hash)) := by
  rw [write, String.toList_ofList, Text.splitFirst_append (not_mem_name a)]

/-- The hash is read off a digest. -/
theorem hashPart_write (a : Algorithm) (hash : List UInt8) :
    hashPart (write a hash) = .ok (String.ofList (hexOfBytes hash)) := by
  rw [hashPart, splitFirst_write]

/-- The algorithm is read off a digest. -/
theorem algorithmName_write (a : Algorithm) (hash : List UInt8) :
    algorithmName (write a hash) = a.name := by
  rw [algorithmName, splitFirst_write, String.ofList_toList]

/-- An address names an algorithm. -/
theorem algorithmOf_of_isAddress {digest : String} (h : isAddress digest = true) :
    ∃ a, algorithmOf (algorithmName digest) = .ok a := by
  unfold isAddress at h
  split at h
  · rename_i name hash hsplit
    rw [Bool.and_eq_true, Bool.and_eq_true] at h
    obtain ⟨a, _, ha⟩ := List.any_eq_true.1 h.1.1
    refine ⟨a, ?_⟩
    rw [algorithmName, hsplit, ← eq_of_beq ha, String.ofList_toList, algorithmOf,
      Algorithm.ofName?_name]
  · exact absurd h nofun

theorem isHashDigit_hexDigit {n : Nat} (hn : n < 16) : isHashDigit (Text.hexDigit n) = true := by
  have hall : ∀ n : Fin 16, isHashDigit (Text.hexDigit n) = true := by decide
  exact hall ⟨n, hn⟩

theorem isHashDigit_of_mem_hexDigits {width n : Nat} {c : Char} (hc : c ∈ Text.hexDigits width n) :
    isHashDigit c = true := by
  induction width generalizing n with
  | zero => exact absurd hc List.not_mem_nil
  | succ width ih =>
      rw [Text.hexDigits, List.mem_append] at hc
      rcases hc with hc | hc
      · exact ih hc
      · rw [List.mem_singleton.1 hc]
        exact isHashDigit_hexDigit (Nat.mod_lt _ (by decide))

/-- **A hash is written in small hexadecimal digits.** -/
theorem isHashDigit_of_mem_hexOfBytes {bytes : List UInt8} {c : Char}
    (hc : c ∈ hexOfBytes bytes) : isHashDigit c = true := by
  obtain ⟨b, _, hb⟩ := List.mem_flatMap.1 hc
  exact isHashDigit_of_mem_hexDigits hb

theorem length_hexOfBytes (bytes : List UInt8) : (hexOfBytes bytes).length = 2 * bytes.length := by
  induction bytes with
  | nil => rfl
  | cons b bytes ih =>
      rw [hexOfBytes, List.flatMap_cons, List.length_append, ← hexOfBytes, ih, List.length_cons]
      show 2 + _ = _
      omega

end ImageTransfer.Digest

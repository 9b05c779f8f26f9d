import ImageTransfer.Digest.BlockHash
import ImageTransfer.Digest.Word

/-!
# Full blocks

A hash function absorbs the full blocks of what it is given, one after the other
(`absorbBlocks_eq_foldl`). Where a row of full blocks ends, absorbing may stop and go on later
(`absorbBlocks_append`); everything that is said of messages in pieces rests on that.
-/

namespace ImageTransfer

section

variable {α : Type} {size : Nat}

theorem groupsOf_of_lt {xs : List α} (h : xs.length < size) : groupsOf size xs = [] := by
  rw [groupsOf, if_pos]
  rw [List.length_take]
  omega

theorem groupsOf_append_of_eq {group : List α} (hpos : 0 < size) (hgroup : group.length = size)
    (rest : List α) : groupsOf size (group ++ rest) = group :: groupsOf size rest := by
  rw [groupsOf, if_neg]
  · rw [← hgroup, List.take_left, List.drop_left]
  · rw [List.length_take, List.length_append]
    omega

/-- To prove something of a list, cut off group after group. -/
theorem groupsOf_induction {P : List α → Prop} (hpos : 0 < size)
    (short : ∀ xs, xs.length < size → P xs)
    (group : ∀ group rest, group.length = size → P rest → P (group ++ rest)) (xs : List α) :
    P xs := by
  induction hn : xs.length using Nat.strongRecOn generalizing xs with
  | ind n ih =>
      rcases Nat.lt_or_ge xs.length size with hlt | hge
      · exact short xs hlt
      · have hdrop := ih (xs.drop size).length (by rw [List.length_drop]; omega) (xs.drop size) rfl
        have hxs := group (xs.take size) (xs.drop size) (List.length_take_of_le hge) hdrop
        rwa [List.take_append_drop] at hxs

theorem length_groupsOf (hpos : 0 < size) (xs : List α) :
    (groupsOf size xs).length = xs.length / size := by
  induction xs using groupsOf_induction hpos with
  | short xs hlt => rw [groupsOf_of_lt hlt, Nat.div_eq_of_lt hlt, List.length_nil]
  | group front rest hfront ih =>
      rw [groupsOf_append_of_eq hpos hfront, List.length_cons, ih, List.length_append, hfront,
        Nat.add_div_left _ hpos]

theorem groupsOf_append (hpos : 0 < size) {full : List α} (hfull : size ∣ full.length)
    (rest : List α) : groupsOf size (full ++ rest) = groupsOf size full ++ groupsOf size rest := by
  induction full using groupsOf_induction hpos with
  | short xs hlt =>
      -- the only short list of full groups is empty
      rw [groupsOf_of_lt hlt, List.eq_nil_of_length_eq_zero (Nat.eq_zero_of_dvd_of_lt hfull hlt)]
      rfl
  | group front back hfront ih =>
      rw [List.length_append, hfront, Nat.dvd_add_right (Nat.dvd_refl size)] at hfull
      rw [List.append_assoc, groupsOf_append_of_eq hpos hfront, groupsOf_append_of_eq hpos hfront,
        ih hfull]
      rfl

theorem length_of_mem_groupsOf (hpos : 0 < size) {xs group : List α}
    (hmem : group ∈ groupsOf size xs) : group.length = size := by
  induction xs using groupsOf_induction hpos with
  | short xs hlt =>
      rw [groupsOf_of_lt hlt] at hmem
      exact absurd hmem List.not_mem_nil
  | group front rest hfront ih =>
      rw [groupsOf_append_of_eq hpos hfront] at hmem
      rcases List.mem_cons.1 hmem with rfl | hmem
      · exact hfront
      · exact ih hmem

/-- **Nothing is lost of a list of full groups.** -/
theorem flatten_groupsOf (hpos : 0 < size) {xs : List α} (hfull : size ∣ xs.length) :
    (groupsOf size xs).flatten = xs := by
  induction xs using groupsOf_induction hpos with
  | short xs hlt =>
      rw [groupsOf_of_lt hlt, List.eq_nil_of_length_eq_zero (Nat.eq_zero_of_dvd_of_lt hfull hlt)]
      rfl
  | group front rest hfront ih =>
      rw [List.length_append, hfront, Nat.dvd_add_right (Nat.dvd_refl size)] at hfull
      rw [groupsOf_append_of_eq hpos hfront, List.flatten_cons, ih hfull]

/-- Groups that are joined are cut apart again. -/
theorem groupsOf_flatten (hpos : 0 < size) {groups : List (List α)}
    (hgroups : ∀ group ∈ groups, group.length = size) : groupsOf size groups.flatten = groups := by
  induction groups with
  | nil => exact groupsOf_of_lt hpos
  | cons group groups ih =>
      obtain ⟨hgroup, hrest⟩ := List.forall_mem_cons.1 hgroups
      rw [List.flatten_cons, groupsOf_append_of_eq hpos hgroup, ih hrest]

end

namespace Digest.BlockHash

variable (h : BlockHash) (s : h.State)

theorem absorbBlocks_of_lt {bytes : List UInt8} (hlt : bytes.length < h.blockSize) :
    h.absorbBlocks s bytes = s := by
  rw [absorbBlocks, if_pos]
  rw [List.length_take]
  omega

theorem absorbBlocks_nil : h.absorbBlocks s [] = s := h.absorbBlocks_of_lt s h.blockSize_pos

theorem absorbBlocks_append_of_eq {block : List UInt8} (hblock : block.length = h.blockSize)
    (rest : List UInt8) :
    h.absorbBlocks s (block ++ rest) = h.absorbBlocks (h.absorb s block) rest := by
  rw [absorbBlocks, if_neg]
  · rw [← hblock, List.take_left, List.drop_left]
  · rw [List.length_take, List.length_append, hblock]
    omega

/-- **The full blocks are absorbed in order.** -/
theorem absorbBlocks_eq_foldl (bytes : List UInt8) :
    h.absorbBlocks s bytes = (groupsOf h.blockSize bytes).foldl h.absorb s := by
  induction bytes using groupsOf_induction h.blockSize_pos generalizing s with
  | short xs hlt => rw [h.absorbBlocks_of_lt s hlt, groupsOf_of_lt hlt, List.foldl_nil]
  | group block rest hblock ih =>
      rw [h.absorbBlocks_append_of_eq s hblock, ih,
        groupsOf_append_of_eq h.blockSize_pos hblock, List.foldl_cons]

/-- **After full blocks, absorbing goes on from the state they led to.** -/
theorem absorbBlocks_append {full : List UInt8} (hfull : h.blockSize ∣ full.length)
    (rest : List UInt8) :
    h.absorbBlocks s (full ++ rest) = h.absorbBlocks (h.absorbBlocks s full) rest := by
  rw [h.absorbBlocks_eq_foldl, groupsOf_append h.blockSize_pos hfull, List.foldl_append,
    ← h.absorbBlocks_eq_foldl, ← h.absorbBlocks_eq_foldl]

/-- One block. -/
theorem absorbBlocks_of_eq {block : List UInt8} (hblock : block.length = h.blockSize) :
    h.absorbBlocks s block = h.absorb s block := by
  have hone := h.absorbBlocks_append_of_eq s hblock []
  rwa [List.append_nil, h.absorbBlocks_nil] at hone

end Digest.BlockHash

end ImageTransfer

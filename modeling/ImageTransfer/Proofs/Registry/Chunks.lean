import ImageTransfer.Registry.Chunks

/-!
# Chunks do not depend on how data arrives

A stream that is regrouped gives the slices of the data that it brings, whatever its pieces are
(`rechunk_eq_slices`), and the slices of data are the data (`flatten_slices`): consecutive, of one size
but for the last, and none of them empty (`isSlicing_slices`). Pushing items one by one is what both
have in common: a chunk that is not full yet takes items until it is. Data that is cut by position, at all
multiples of the size, has the same slices (`cut_eq_slices`).

A loop that appends whole pieces to a buffer, and takes chunks off its front as long as it holds one,
gives the same (`rechunkBuffered_eq_slices`). Its invariant is that the chunks that were taken, and the
slices of what is left with all that is still to come, are the slices of everything.
-/

namespace ImageTransfer.Chunks

variable {α : Type} {size : Nat}

theorem slices_nil (size : Nat) : slices size ([] : List α) = [] := by
  rw [slices, if_pos (.inr rfl)]

theorem slices_of_ne_nil (h : 0 < size) {data : List α} (hd : data ≠ []) :
    slices size data = data.take size :: slices size (data.drop size) := by
  rw [slices, if_neg]
  rintro (h0 | h0)
  · omega
  · exact hd h0

/-- Induction on data from which slices are taken off the front. -/
@[elab_as_elim]
theorem slices_induction {P : List α → Prop} (h : 0 < size) (nil : P [])
    (step : ∀ data, data ≠ [] → P (data.drop size) → P data) (data : List α) : P data := by
  by_cases hd : data = []
  · rw [hd]
    exact nil
  · have hlen : (data.drop size).length < data.length := by
      have := List.length_pos_iff.2 hd
      rw [List.length_drop]; omega
    exact step data hd (slices_induction h nil step (data.drop size))
termination_by data.length

/-- **Slices put together are the data.** -/
theorem flatten_slices (h : 0 < size) (data : List α) : (slices size data).flatten = data := by
  induction data using slices_induction h with
  | nil => rw [slices_nil]; rfl
  | step data hd ih => rw [slices_of_ne_nil h hd, List.flatten_cons, ih, List.take_append_drop]

/-- No slice is empty. -/
theorem ne_nil_of_mem_slices (h : 0 < size) {data piece : List α} (hp : piece ∈ slices size data) :
    piece ≠ [] := by
  induction data using slices_induction h with
  | nil => rw [slices_nil] at hp; exact absurd hp (by simp)
  | step data hd ih =>
      rw [slices_of_ne_nil h hd] at hp
      rcases List.mem_cons.1 hp with rfl | hp
      · intro h0
        rcases List.take_eq_nil_iff.1 h0 with h0 | h0
        · omega
        · exact hd h0
      · exact ih hp

theorem length_le_of_mem_slices (h : 0 < size) {data piece : List α}
    (hp : piece ∈ slices size data) : piece.length ≤ size := by
  induction data using slices_induction h with
  | nil => rw [slices_nil] at hp; exact absurd hp (by simp)
  | step data hd ih =>
      rw [slices_of_ne_nil h hd] at hp
      rcases List.mem_cons.1 hp with rfl | hp
      · rw [List.length_take]; omega
      · exact ih hp

/-- Only the last slice may be smaller than the others. -/
theorem length_of_mem_dropLast_slices (h : 0 < size) {data piece : List α}
    (hp : piece ∈ (slices size data).dropLast) : piece.length = size := by
  induction data using slices_induction h with
  | nil => rw [slices_nil] at hp; exact absurd hp (by simp)
  | step data hd ih =>
      rw [slices_of_ne_nil h hd] at hp
      by_cases hrest : data.drop size = []
      · -- the first slice is the last
        rw [hrest, slices_nil] at hp
        exact absurd hp (by simp)
      · have hmore : size < data.length := by
          have := List.length_pos_iff.2 hrest
          rw [List.length_drop] at this; omega
        have hne : slices size (data.drop size) ≠ [] := by
          rw [slices_of_ne_nil h hrest]; exact List.cons_ne_nil _ _
        rw [List.dropLast_cons_of_ne_nil hne] at hp
        rcases List.mem_cons.1 hp with rfl | hp
        · rw [List.length_take]; omega
        · exact ih hp

/-- One more cut than what follows the first one takes. -/
theorem count_of_pos (h : 0 < size) {length : Nat} (hpos : 0 < length) :
    (length + size - 1) / size = (length - size + size - 1) / size + 1 := by
  have hround : length + size - 1 = length - 1 + size := by omega
  rw [hround, Nat.add_div_right _ h]
  rcases Nat.lt_or_ge length size with hlt | hge
  · rw [Nat.div_eq_of_lt (by omega), Nat.div_eq_of_lt (by omega)]
  · have hsub : length - size + size - 1 = length - 1 := by omega
    rw [hsub]

theorem length_slices (h : 0 < size) (data : List α) :
    (slices size data).length = (data.length + size - 1) / size := by
  induction data using slices_induction h with
  | nil =>
      have hnone : ([] : List α).length + size - 1 < size := by rw [List.length_nil]; omega
      rw [slices_nil, Nat.div_eq_of_lt hnone]
      rfl
  | step data hd ih =>
      rw [slices_of_ne_nil h hd, List.length_cons, ih, List.length_drop,
        ← count_of_pos h (List.length_pos_iff.2 hd)]

/-- Consecutive pieces of data: all of one size but for the last, which may be smaller, and none
empty. There are as many as it takes. -/
structure IsSlicing (size : Nat) (data : List α) (pieces : List (List α)) : Prop where
  flatten : pieces.flatten = data
  ne_nil : ∀ piece ∈ pieces, piece ≠ []
  length_le : ∀ piece ∈ pieces, piece.length ≤ size
  full : ∀ piece ∈ pieces.dropLast, piece.length = size
  count : pieces.length = (data.length + size - 1) / size

/-- **Slices are what data is cut into.** -/
theorem isSlicing_slices (h : 0 < size) (data : List α) : IsSlicing size data (slices size data) where
  flatten := flatten_slices h data
  ne_nil := fun _ hp => ne_nil_of_mem_slices h hp
  length_le := fun _ hp => length_le_of_mem_slices h hp
  full := fun _ hp => length_of_mem_dropLast_slices h hp
  count := length_slices h data

/-! ## Cuts by position -/

/-- The positions at which data of some length is cut: all multiples of the size that are in it. -/
def positions (size length : Nat) : List Nat :=
  (List.range ((length + size - 1) / size)).map (size * ·)

/-- Data cut by position: from each position as many items as there are, but no more than fit. -/
def cut (size : Nat) (data : List α) : List (List α) :=
  (positions size data.length).map fun i => (data.take (i + size)).drop i

theorem positions_zero (h : 0 < size) : positions size 0 = [] := by
  rw [positions, Nat.div_eq_of_lt (by omega)]
  rfl

/-- The first position is the beginning, and the others are those in what follows the first cut. -/
theorem positions_of_pos (h : 0 < size) {length : Nat} (hpos : 0 < length) :
    positions size length = 0 :: (positions size (length - size)).map (size + ·) := by
  rw [positions, positions, count_of_pos h hpos, List.range_succ_eq_map, List.map_cons, List.map_map,
    List.map_map]
  refine List.cons_eq_cons.2 ⟨Nat.mul_zero size, List.map_congr_left fun i _ => ?_⟩
  show size * (i + 1) = size + size * i
  rw [Nat.mul_succ, Nat.add_comm]

/-- **Cutting by position gives the slices.** -/
theorem cut_eq_slices (h : 0 < size) (data : List α) : cut size data = slices size data := by
  induction data using slices_induction h with
  | nil => rw [slices_nil, cut, List.length_nil, positions_zero h]; rfl
  | step data hd ih =>
      rw [slices_of_ne_nil h hd, ← ih, cut, cut, List.length_drop,
        positions_of_pos h (List.length_pos_iff.2 hd), List.map_cons, List.map_map]
      refine List.cons_eq_cons.2 ⟨?_, List.map_congr_left fun i _ => ?_⟩
      · rw [Nat.zero_add, List.drop_zero]
      · show (data.take (size + i + size)).drop (size + i) = ((data.drop size).take (i + size)).drop i
        rw [Nat.add_assoc, ← List.drop_drop, List.drop_take, Nat.add_sub_cancel_left]

namespace Regrouping

/-- Items that do not fill the chunk are held. -/
theorem foldl_push_of_lt (full : List (List α)) (held : List α) (count : Nat) {data : List α}
    (h : count + data.length < size) :
    data.foldl (push size) ⟨full, held, count⟩ =
      ⟨full, data.reverse ++ held, count + data.length⟩ := by
  induction data generalizing held count with
  | nil => rfl
  | cons x data ih =>
      rw [List.length_cons] at h
      rw [List.foldl_cons, push, if_neg (by show ¬ size ≤ count + 1; omega)]
      rw [ih (x :: held) (count + 1) (by omega)]
      simp only [List.reverse_cons, List.append_assoc, List.singleton_append, List.length_cons]
      congr 1
      omega

/-- Items that fill the chunk finish it. -/
theorem foldl_push_of_eq (h : 0 < size) (full : List (List α)) {data : List α}
    (hd : data.length = size) :
    data.foldl (push size) ⟨full, [], 0⟩ = ⟨data :: full, [], 0⟩ := by
  rcases List.eq_nil_or_concat data with rfl | ⟨init, x, rfl⟩
  · rw [List.length_nil] at hd; omega
  · rw [List.length_concat] at hd
    rw [List.concat_eq_append, List.foldl_append,
      foldl_push_of_lt full [] 0 (by omega), List.foldl_cons, List.foldl_nil,
      push, if_pos (by show size ≤ 0 + init.length + 1; omega)]
    simp

/-- All that a regrouping has been given: full chunks, and the rest. -/
theorem chunks_foldl_push (h : 0 < size) (full : List (List α)) (data : List α) :
    (data.foldl (push size) ⟨full, [], 0⟩).chunks ++
        (data.foldl (push size) ⟨full, [], 0⟩).rest?.toList =
      full.reverse ++ slices size data := by
  induction data using slices_induction h generalizing full with
  | nil =>
      rw [slices_nil]
      simp [chunks, rest?]
  | step data hd ih =>
      rw [slices_of_ne_nil h hd]
      rcases Nat.lt_or_ge data.length size with hlt | hge
      · -- the data is one slice, which is held
        rw [foldl_push_of_lt full [] 0 (by omega), List.take_of_length_le (by omega),
          List.drop_eq_nil_of_le (by omega), slices_nil]
        simp [chunks, rest?, hd]
      · -- the first slice becomes a full chunk
        have hfirst : (data.take size).length = size := by rw [List.length_take]; omega
        have hsplit : data.foldl (push size) ⟨full, [], 0⟩ =
            (data.drop size).foldl (push size) ⟨data.take size :: full, [], 0⟩ := by
          rw [← foldl_push_of_eq h full hfirst, ← List.foldl_append, List.take_append_drop]
        rw [hsplit, ih]
        simp

end Regrouping

/-- **A stream is regrouped into the slices of what it brings.** -/
theorem rechunk_eq_slices (h : 0 < size) (pieces : List (List α)) :
    rechunk size pieces = slices size pieces.flatten := by
  have hfold : regroup size pieces = pieces.flatten.foldl (Regrouping.push size) .empty := by
    rw [List.foldl_flatten]; rfl
  rw [rechunk, hfold]
  exact Regrouping.chunks_foldl_push h [] pieces.flatten

/-- **What is read in slices of one size and regrouped to another is the data.** -/
theorem flatten_rechunk_slices {read : Nat} (h : 0 < size) (hr : 0 < read) (data : List α) :
    (rechunk size (slices read data)).flatten = data := by
  rw [rechunk_eq_slices h, flatten_slices hr, flatten_slices h]

/-! ## A growing buffer -/

/-- The chunks that are taken off the front of a buffer as long as it holds a full one, and what is
left in it then. -/
def drain (size : Nat) (buffer : List α) : List (List α) × List α :=
  if 0 < size ∧ size ≤ buffer.length then
    let (chunks, rest) := drain size (buffer.drop size)
    (buffer.take size :: chunks, rest)
  else ([], buffer)
termination_by buffer.length
decreasing_by
  rename_i h
  rw [List.length_drop]
  omega

/-- A further piece is appended to the buffer, which is drained then. -/
def absorb (size : Nat) (state : List (List α) × List α) (piece : List α) :
    List (List α) × List α :=
  let (chunks, rest) := drain size (state.2 ++ piece)
  (state.1 ++ chunks, rest)

/-- The chunks that a loop over the pieces of a stream takes off its buffer. What is left in the end
is the last one. -/
def rechunkBuffered (size : Nat) (pieces : List (List α)) : List (List α) :=
  let (chunks, rest) := pieces.foldl (absorb size) ([], [])
  if rest.isEmpty then chunks else chunks ++ [rest]

theorem drain_of_le (h : 0 < size) {buffer : List α} (hle : size ≤ buffer.length) :
    drain size buffer =
      (buffer.take size :: (drain size (buffer.drop size)).1, (drain size (buffer.drop size)).2) := by
  rw [drain, if_pos ⟨h, hle⟩]

theorem drain_of_lt {buffer : List α} (hlt : buffer.length < size) :
    drain size buffer = ([], buffer) := by
  rw [drain, if_neg]
  rintro ⟨_, hle⟩
  omega

/-- A drained buffer does not hold a chunk. -/
theorem length_drain_lt (h : 0 < size) (buffer : List α) : (drain size buffer).2.length < size := by
  induction buffer using slices_induction h with
  | nil =>
      rw [drain_of_lt (by rw [List.length_nil]; exact h)]
      exact h
  | step buffer _ ih =>
      rcases Nat.lt_or_ge buffer.length size with hlt | hge
      · rw [drain_of_lt hlt]
        exact hlt
      · rw [drain_of_le h hge]
        exact ih

/-- **The invariant of the buffer**: what was taken off it are the first slices, whatever comes after
what is left. -/
theorem slices_drain (h : 0 < size) (buffer more : List α) :
    (drain size buffer).1 ++ slices size ((drain size buffer).2 ++ more) =
      slices size (buffer ++ more) := by
  induction buffer using slices_induction h with
  | nil =>
      rw [drain_of_lt (by rw [List.length_nil]; exact h)]
      rfl
  | step buffer hbuffer ih =>
      rcases Nat.lt_or_ge buffer.length size with hlt | hge
      · rw [drain_of_lt hlt]
        rfl
      · have hne : buffer ++ more ≠ [] := List.append_ne_nil_of_left_ne_nil hbuffer more
        rw [drain_of_le h hge, slices_of_ne_nil h hne, List.take_append_of_le_length hge,
          List.drop_append_of_le_length hge, List.cons_append, ih]

/-- The invariant is kept by each piece, and so it holds after all of them. -/
theorem slices_foldl_absorb (h : 0 < size) (pieces : List (List α)) (state : List (List α) × List α)
    (more : List α) :
    (pieces.foldl (absorb size) state).1 ++
        slices size ((pieces.foldl (absorb size) state).2 ++ more) =
      state.1 ++ slices size (state.2 ++ pieces.flatten ++ more) := by
  induction pieces generalizing state with
  | nil => rw [List.foldl_nil, List.flatten_nil, List.append_nil]
  | cons piece pieces ih =>
      rw [List.foldl_cons, ih, absorb, List.append_assoc, List.append_assoc, slices_drain h,
        List.flatten_cons]
      simp only [List.append_assoc]

theorem length_foldl_absorb_lt (h : 0 < size) (pieces : List (List α))
    {state : List (List α) × List α} (hstate : state.2.length < size) :
    (pieces.foldl (absorb size) state).2.length < size := by
  induction pieces generalizing state with
  | nil => exact hstate
  | cons piece pieces ih => exact ih (length_drain_lt h _)

/-- What does not fill a chunk is one slice, or none. -/
theorem slices_of_lt (h : 0 < size) {rest : List α} (hlt : rest.length < size) :
    slices size rest = if rest.isEmpty then [] else [rest] := by
  cases rest with
  | nil => rw [slices_nil]; rfl
  | cons x rest =>
      rw [slices_of_ne_nil h (List.cons_ne_nil x rest), List.take_of_length_le (by omega),
        List.drop_eq_nil_of_le (by omega), slices_nil]
      rfl

/-- **A buffer that is drained piece by piece gives the slices of what the pieces bring.** -/
theorem rechunkBuffered_eq_slices (h : 0 < size) (pieces : List (List α)) :
    rechunkBuffered size pieces = slices size pieces.flatten := by
  have hall := slices_foldl_absorb h pieces ([], []) []
  have hrest : (pieces.foldl (absorb size) ([], [])).2.length < size :=
    length_foldl_absorb_lt h pieces (by rw [List.length_nil]; exact h)
  rw [List.append_nil, slices_of_lt h hrest] at hall
  simp only [List.nil_append, List.append_nil] at hall
  rw [← hall, rechunkBuffered]
  obtain ⟨chunks, rest⟩ := pieces.foldl (absorb size) ([], [])
  cases rest with
  | nil => exact (List.append_nil chunks).symm
  | cons x rest => rfl

end ImageTransfer.Chunks

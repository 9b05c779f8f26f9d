/-!
# Chunks

An upload sends data in chunks of one size, of which only the last may be smaller. Data at hand is
cut into slices; a stream of pieces is regrouped while it arrives. Both give the same chunks.
-/

namespace ImageTransfer.Chunks

variable {α : Type}

/-- Data cut into slices of `size` items; the last may be smaller, and none is empty. -/
def slices (size : Nat) (data : List α) : List (List α) :=
  if size = 0 ∨ data = [] then [] else data.take size :: slices size (data.drop size)
termination_by data.length
decreasing_by
  rename_i h
  simp only [not_or] at h
  have := List.length_pos_iff.2 h.2
  simp only [List.length_drop]
  omega

/-- A stream that is being regrouped into chunks. -/
structure Regrouping (α : Type) where
  /-- The chunks that are full, the latest first. -/
  full : List (List α)
  /-- The items that do not fill a chunk yet, the latest first, and their number. -/
  held : List α
  count : Nat

namespace Regrouping

/-- Before the first item. -/
def empty : Regrouping α := ⟨[], [], 0⟩

/-- One more item. -/
def push (size : Nat) (r : Regrouping α) (x : α) : Regrouping α :=
  if size ≤ r.count + 1 then ⟨(x :: r.held).reverse :: r.full, [], 0⟩
  else ⟨r.full, x :: r.held, r.count + 1⟩

/-- A further piece of the stream. -/
def feed (size : Nat) (r : Regrouping α) (piece : List α) : Regrouping α :=
  piece.foldl (push size) r

/-- The full chunks in order. -/
def chunks (r : Regrouping α) : List (List α) := r.full.reverse

/-- The last chunk, if something is left for one. -/
def rest? (r : Regrouping α) : Option (List α) :=
  if r.held.isEmpty then none else some r.held.reverse

end Regrouping

/-- A stream of pieces, regrouped. -/
def regroup (size : Nat) (pieces : List (List α)) : Regrouping α :=
  pieces.foldl (Regrouping.feed size) .empty

/-- All chunks of a stream of pieces. -/
def rechunk (size : Nat) (pieces : List (List α)) : List (List α) :=
  (regroup size pieces).chunks ++ (regroup size pieces).rest?.toList

end ImageTransfer.Chunks

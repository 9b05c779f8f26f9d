/-!
# Cutting lists at a separator

References, digests, host lists and paths are cut at separators. The pieces never contain the
separator, and joining them with it gives the list back.
-/

namespace ImageTransfer.Text

variable {α : Type} [DecidableEq α]

/-- What comes before the first separator, and what comes after it if there is one. -/
def splitFirst (sep : α) : List α → List α × Option (List α)
  | [] => ([], none)
  | x :: rest =>
    if x = sep then ([], some rest)
    else
      let (before, after) := splitFirst sep rest
      (x :: before, after)

/-- What comes before the last separator and after it, if there is one. -/
def splitLast? (sep : α) : List α → Option (List α × List α)
  | [] => none
  | x :: rest =>
    match splitLast? sep rest with
    | some (before, after) => some (x :: before, after)
    | none => if x = sep then some ([], rest) else none

/-- All pieces between separators; there is always at least one. -/
def splitAll (sep : α) : List α → List (List α)
  | [] => [[]]
  | x :: rest =>
    if x = sep then [] :: splitAll sep rest
    else match splitAll sep rest with
      | piece :: pieces => (x :: piece) :: pieces
      | [] => [[x]]

/-- Pieces with a separator between neighbours. -/
def joinWith (sep : α) : List (List α) → List α
  | [] => []
  | [piece] => piece
  | piece :: pieces => piece ++ sep :: joinWith sep pieces

theorem splitAll_ne_nil (sep : α) (xs : List α) : splitAll sep xs ≠ [] := by
  cases xs with
  | nil => simp [splitAll]
  | cons x rest =>
    rw [splitAll]
    split
    · simp
    · split <;> simp

/-- **Joining the pieces gives the list back.** -/
theorem joinWith_splitAll (sep : α) (xs : List α) : joinWith sep (splitAll sep xs) = xs := by
  induction xs with
  | nil => rfl
  | cons x rest ih =>
    rw [splitAll]
    obtain ⟨piece, pieces, h⟩ := List.exists_cons_of_ne_nil (splitAll_ne_nil sep rest)
    rw [h] at ih ⊢
    split
    · subst_vars; simp [joinWith]
    · cases pieces with
      | nil => simpa [joinWith] using ih
      | cons p ps => simpa [joinWith] using ih

/-- No separator is left in front of the first one. -/
theorem not_mem_splitFirst (sep : α) (xs : List α) : sep ∉ (splitFirst sep xs).1 := by
  induction xs with
  | nil => simp [splitFirst]
  | cons x rest ih =>
    rw [splitFirst]
    split
    · simp
    · rename_i hx
      simp only [List.mem_cons, not_or]
      exact ⟨fun h => hx h.symm, ih⟩

end ImageTransfer.Text

import ImageTransfer.Text.Blank
import ImageTransfer.Text.Split
import Mathlib.Data.List.TakeWhile

/-!
# What is cut and put together again

A list that was cut at a separator is put together from the pieces, and a list that was put together
from pieces without the separator is cut into these pieces. Both directions are needed of every way to
cut: who reads a text goes from the text to the pieces, and who says which texts are read goes back.
-/

namespace ImageTransfer.Text

/-- A property of all elements of a list, by evaluation. -/
theorem forall_mem_of_all {α : Type} {p : α → Prop} [DecidablePred p] {xs : List α}
    (h : (xs.all fun x => p x) = true) : ∀ x ∈ xs, p x :=
  fun x hx => of_decide_eq_true (List.all_eq_true.1 h x hx)

variable {α : Type} [DecidableEq α] {sep : α}

/-! ## The first separator -/

/-- A list with a separator after a part that has none is cut there. -/
theorem splitFirst_append {before : List α} (hb : sep ∉ before) (after : List α) :
    splitFirst sep (before ++ sep :: after) = (before, some after) := by
  induction before with
  | nil => rw [List.nil_append, splitFirst, if_pos rfl]
  | cons x before ih =>
      rw [List.mem_cons, not_or] at hb
      rw [List.cons_append, splitFirst, if_neg (Ne.symm hb.1), ih hb.2]

theorem splitFirst_of_not_mem {xs : List α} (h : sep ∉ xs) : splitFirst sep xs = (xs, none) := by
  induction xs with
  | nil => rfl
  | cons x xs ih =>
      rw [List.mem_cons, not_or] at h
      rw [splitFirst, if_neg (Ne.symm h.1), ih h.2]

/-- The two parts of a list, with the separator between them if there is one. -/
theorem splitFirst_eq (sep : α) (xs : List α) :
    xs = (splitFirst sep xs).1 ++ ((splitFirst sep xs).2.map (sep :: ·)).getD [] := by
  induction xs with
  | nil => rfl
  | cons x xs ih =>
      rw [splitFirst]
      split
      · rename_i hx
        rw [hx]
        rfl
      · show x :: xs = x :: (_ ++ _)
        rw [← ih]

/-! ## The last separator -/

theorem splitLast?_of_not_mem {xs : List α} (h : sep ∉ xs) : splitLast? sep xs = none := by
  induction xs with
  | nil => rfl
  | cons x xs ih =>
      rw [List.mem_cons, not_or] at h
      rw [splitLast?, ih h.2]
      exact if_neg (Ne.symm h.1)

/-- A list with a separator before a part that has none is cut there. -/
theorem splitLast?_append (before : List α) {after : List α} (ha : sep ∉ after) :
    splitLast? sep (before ++ sep :: after) = some (before, after) := by
  induction before with
  | nil =>
      rw [List.nil_append, splitLast?, splitLast?_of_not_mem ha]
      exact if_pos rfl
  | cons x before ih => rw [List.cons_append, splitLast?, ih]

/-- There is no separator, or the list is cut at the last one. -/
theorem splitLast?_cases (sep : α) (xs : List α) :
    (splitLast? sep xs = none ∧ sep ∉ xs) ∨
      ∃ before after, splitLast? sep xs = some (before, after) ∧ xs = before ++ sep :: after ∧
        sep ∉ after := by
  induction xs with
  | nil => exact .inl ⟨rfl, List.not_mem_nil⟩
  | cons x xs ih =>
      rw [splitLast?]
      rcases ih with ⟨hnone, hmem⟩ | ⟨before, after, hsome, hxs, hmem⟩
      · rw [hnone]
        by_cases hx : x = sep
        · exact .inr ⟨[], xs, if_pos hx, by rw [hx]; rfl, hmem⟩
        · refine .inl ⟨if_neg hx, ?_⟩
          rw [List.mem_cons, not_or]
          exact ⟨fun heq => hx heq.symm, hmem⟩
      · rw [hsome]
        exact .inr ⟨x :: before, after, rfl, congrArg (x :: ·) hxs, hmem⟩

/-! ## All separators -/

theorem splitAll_of_not_mem {xs : List α} (h : sep ∉ xs) : splitAll sep xs = [xs] := by
  induction xs with
  | nil => rfl
  | cons x xs ih =>
      rw [List.mem_cons, not_or] at h
      rw [splitAll, if_neg (Ne.symm h.1), ih h.2]

/-- A separator ends a piece, whatever is on either side of it. -/
theorem splitAll_append_sep (xs ys : List α) :
    splitAll sep (xs ++ sep :: ys) = splitAll sep xs ++ splitAll sep ys := by
  induction xs with
  | nil => exact if_pos rfl
  | cons x xs ih =>
      obtain ⟨piece, pieces, hsplit⟩ := List.exists_cons_of_ne_nil (splitAll_ne_nil sep xs)
      rw [List.cons_append, splitAll, splitAll, ih, hsplit]
      split <;> rfl

theorem splitAll_append {piece : List α} (hp : sep ∉ piece) (rest : List α) :
    splitAll sep (piece ++ sep :: rest) = piece :: splitAll sep rest := by
  rw [splitAll_append_sep, splitAll_of_not_mem hp]
  rfl

omit [DecidableEq α] in
theorem joinWith_cons {piece : List α} {pieces : List (List α)} (h : pieces ≠ []) :
    joinWith sep (piece :: pieces) = piece ++ sep :: joinWith sep pieces := by
  obtain ⟨next, rest, rfl⟩ := List.exists_cons_of_ne_nil h
  rfl

/-- **Pieces that are put together are cut into the same pieces**, if no separator is in them. -/
theorem splitAll_joinWith {pieces : List (List α)} (hne : pieces ≠ [])
    (h : ∀ piece ∈ pieces, sep ∉ piece) : splitAll sep (joinWith sep pieces) = pieces := by
  induction pieces with
  | nil => exact absurd rfl hne
  | cons piece pieces ih =>
      have hpiece := h piece List.mem_cons_self
      by_cases hlast : pieces = []
      · rw [hlast]
        exact splitAll_of_not_mem hpiece
      · rw [joinWith_cons hlast, splitAll_append hpiece,
          ih hlast fun p hp => h p (List.mem_cons_of_mem _ hp)]

theorem not_mem_of_mem_splitAll {xs piece : List α} (h : piece ∈ splitAll sep xs) : sep ∉ piece := by
  induction xs generalizing piece with
  | nil =>
      rw [List.mem_singleton.1 h]
      exact List.not_mem_nil
  | cons x xs ih =>
      rw [splitAll] at h
      split at h
      · rcases List.mem_cons.1 h with rfl | h
        · exact List.not_mem_nil
        · exact ih h
      · rename_i hx
        obtain ⟨first, rest, hsplit⟩ := List.exists_cons_of_ne_nil (splitAll_ne_nil sep xs)
        rw [hsplit] at h ih
        rcases List.mem_cons.1 h with rfl | h
        · rw [List.mem_cons, not_or]
          exact ⟨fun heq => hx heq.symm, ih List.mem_cons_self⟩
        · exact ih (List.mem_cons_of_mem _ h)

omit [DecidableEq α] in
/-- What is in pieces that are put together is in one of them, or it is the separator. -/
theorem mem_joinWith {pieces : List (List α)} {x : α} (h : x ∈ joinWith sep pieces) :
    x = sep ∨ ∃ piece ∈ pieces, x ∈ piece := by
  induction pieces with
  | nil => exact absurd h List.not_mem_nil
  | cons piece pieces ih =>
      by_cases hlast : pieces = []
      · rw [hlast] at h
        exact .inr ⟨piece, List.mem_cons_self, h⟩
      · rw [joinWith_cons hlast, List.mem_append, List.mem_cons] at h
        rcases h with h | h | h
        · exact .inr ⟨piece, List.mem_cons_self, h⟩
        · exact .inl h
        · rcases ih h with hsep | ⟨p, hp, hx⟩
          · exact .inl hsep
          · exact .inr ⟨p, List.mem_cons_of_mem _ hp, hx⟩

omit [DecidableEq α] in
/-- A piece stands in what is put together. -/
theorem infix_joinWith {pieces : List (List α)} {piece : List α} (hp : piece ∈ pieces) :
    piece <:+: joinWith sep pieces := by
  induction pieces with
  | nil => exact absurd hp List.not_mem_nil
  | cons first pieces ih =>
      by_cases hlast : pieces = []
      · rw [hlast, List.mem_singleton] at hp
        rw [hlast, ← hp]
        exact List.infix_rfl
      · rw [joinWith_cons hlast]
        rcases List.mem_cons.1 hp with rfl | hp
        · exact (List.prefix_append _ _).isInfix
        · exact (ih hp).trans ((List.suffix_cons _ _).trans (List.suffix_append _ _)).isInfix

omit [DecidableEq α] in
theorem mem_joinWith_of_mem {pieces : List (List α)} {piece : List α} {x : α} (hp : piece ∈ pieces)
    (hx : x ∈ piece) : x ∈ joinWith sep pieces := (infix_joinWith hp).subset hx

/-! ## Blanks at the ends -/

omit [DecidableEq α] in
theorem dropWhile_eq_self {p : α → Bool} {xs : List α} :
    xs.dropWhile p = xs ↔ ∀ x, xs.head? = some x → p x = false := by
  rw [List.dropWhile_eq_self_iff]
  cases xs with
  | nil => simp
  | cons y ys => simp

omit [DecidableEq α] in
/-- **Nothing is trimmed off a list if neither its first nor its last item is blank**, and only
then. -/
theorem trimBlank_eq_self {code : α → Nat} {xs : List α} :
    trimBlank code xs = xs ↔
      (∀ x, xs.head? = some x → isBlank (code x) = false) ∧
        ∀ x, xs.getLast? = some x → isBlank (code x) = false := by
  have hlast : xs.reverse.dropWhile (fun x => isBlank (code x)) = xs.reverse ↔
      ∀ x, xs.getLast? = some x → isBlank (code x) = false := by
    rw [dropWhile_eq_self, List.head?_reverse]
  constructor
  · intro h
    have hleading : xs.dropWhile (fun x => isBlank (code x)) = xs := by
      -- if something were trimmed off in front, what is left would be too short
      refine (List.dropWhile_suffix _).eq_of_length_le ?_
      have hle := (List.dropWhile_suffix (l := (xs.dropWhile fun x => isBlank (code x)).reverse)
        fun x => isBlank (code x)).length_le
      have hlength := congrArg List.length h
      rw [trimBlank, List.length_reverse] at hlength
      rw [List.length_reverse] at hle
      omega
    refine ⟨dropWhile_eq_self.1 hleading, hlast.1 ?_⟩
    have hreverse := congrArg List.reverse h
    rwa [trimBlank, hleading, List.reverse_reverse] at hreverse
  · rintro ⟨hfirst, hend⟩
    rw [trimBlank, dropWhile_eq_self.2 hfirst, hlast.2 hend, List.reverse_reverse]

omit [DecidableEq α] in
/-- **Blanks around a list are trimmed off**, and no more if it neither begins nor ends with one. -/
theorem trimBlank_between {code : α → Nat} {before xs after : List α}
    (hbefore : ∀ x ∈ before, isBlank (code x) = true) (hafter : ∀ x ∈ after, isBlank (code x) = true)
    (hne : xs ≠ []) (hfirst : ∀ x, xs.head? = some x → isBlank (code x) = false)
    (hlast : ∀ x, xs.getLast? = some x → isBlank (code x) = false) :
    trimBlank code (before ++ xs ++ after) = xs := by
  have hleading : (before ++ xs ++ after).dropWhile (fun x => isBlank (code x)) = xs ++ after := by
    rw [List.append_assoc, List.dropWhile_append_of_pos hbefore, dropWhile_eq_self]
    obtain ⟨y, ys, rfl⟩ := List.exists_cons_of_ne_nil hne
    exact hfirst
  have htrailing : (xs ++ after).reverse.dropWhile (fun x => isBlank (code x)) = xs.reverse := by
    rw [List.reverse_append, List.dropWhile_append_of_pos fun x hx => hafter x (List.mem_reverse.1 hx),
      dropWhile_eq_self, List.head?_reverse]
    exact hlast
  rw [trimBlank, hleading, htrailing, List.reverse_reverse]

end ImageTransfer.Text

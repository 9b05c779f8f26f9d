import ImageTransfer.Decimal.Binary64
import ImageTransfer.Decimal.Integer
import Mathlib.Tactic.Ring

/-!
# Decimal digits and what they denote

Numbers are written as characters and read as a list of digits, most significant first. Here are the
two next to each other: what is read from the digits of a number is the number, a zero in front of
digits adds nothing and one behind them multiplies by ten. How many digits a number has is told by
the powers of ten on either side of it, and the first of them is zero only for zero itself.
-/

namespace ImageTransfer.Decimal

/-- The digits that characters stand for. -/
def digitValues (cs : List Char) : List Nat := cs.map fun c => c.toNat - 0x30

theorem ofDigits_digitValues (cs : List Char) :
    ofDigits (digitValues cs) = Nat.ofDigitChars 10 cs 0 := by
  rw [ofDigits, digitValues, List.foldl_map]
  exact Nat.ofDigitChars_eq_foldl.symm

/-- **The digits of a number denote it.** -/
theorem ofDigits_toDigits (n : Nat) : ofDigits (digitValues (Nat.toDigits 10 n)) = n := by
  rw [ofDigits_digitValues, Nat.ofDigitChars_ten_toDigits]

/-- Digits that come after others count once, and those before them a power of ten as often. -/
theorem ofDigits_append (ds es : List Nat) :
    ofDigits (ds ++ es) = ofDigits ds * 10 ^ es.length + ofDigits es := by
  have hfrom : ∀ n, es.foldl (fun n d => 10 * n + d) n = n * 10 ^ es.length + ofDigits es := by
    induction es with
    | nil => exact fun n => by simp [ofDigits]
    | cons e es ih =>
        intro n
        have hcons : ofDigits (e :: es) = (10 * 0 + e) * 10 ^ es.length + ofDigits es := ih _
        rw [List.foldl_cons, ih, hcons, List.length_cons, Nat.pow_succ]
        ring
  rw [ofDigits, List.foldl_append]
  exact hfrom _

theorem ofDigits_replicate_zero (n : Nat) : ofDigits (List.replicate n 0) = 0 := by
  induction n with
  | zero => rfl
  | succ n ih =>
      rw [List.replicate_succ', ofDigits_append, ih]
      rfl

/-- Digits denote less than the power of ten that they do not reach. -/
theorem ofDigits_lt {ds : List Nat} (h : ∀ d ∈ ds, d < 10) : ofDigits ds < 10 ^ ds.length := by
  induction ds with
  | nil => decide
  | cons d ds ih =>
      have hd : d < 10 := h d List.mem_cons_self
      have hds := ih fun e he => h e (List.mem_cons_of_mem _ he)
      have hfirst : ofDigits [d] = d := Nat.zero_add d
      have hmul : d * 10 ^ ds.length ≤ 9 * 10 ^ ds.length := Nat.mul_le_mul_right _ (by omega)
      rw [← List.singleton_append, ofDigits_append, hfirst, List.length_append, List.length_singleton,
        Nat.pow_add, Nat.pow_one]
      omega

theorem digitValues_lt {cs : List Char} (h : ∀ c ∈ cs, c.isDigit) : ∀ d ∈ digitValues cs, d < 10 := by
  intro d hd
  obtain ⟨c, hc, rfl⟩ := List.mem_map.1 hd
  have hdigit := h c hc
  rw [Char.isDigit, Bool.and_eq_true, decide_eq_true_eq, decide_eq_true_eq] at hdigit
  have hhigh : c.toNat ≤ 0x39 := hdigit.2
  omega

theorem isDigit_toDigits (n : Nat) : ∀ c ∈ Nat.toDigits 10 n, c.isDigit :=
  fun _ hc => Nat.isDigit_of_mem_toDigits (by decide) (by decide) hc

/-! ## How many digits -/

theorem digitCount_pos (n : Nat) : 0 < Binary64.digitCount n := Nat.length_toDigits_pos

theorem lt_pow_digitCount (n : Nat) : n < 10 ^ Binary64.digitCount n :=
  (Nat.length_toDigits_le_iff (by decide) (digitCount_pos n)).1 (Nat.le_refl _)

theorem pow_digitCount_le {n : Nat} (h : 0 < n) : 10 ^ (Binary64.digitCount n - 1) ≤ n := by
  rcases Nat.eq_or_lt_of_le (digitCount_pos n) with hone | hmore
  · rw [← hone]
    exact h
  · refine Nat.le_of_not_lt fun hlt => ?_
    have hle := (Nat.length_toDigits_le_iff (by decide) (Nat.sub_pos_of_lt hmore)).2 hlt
    have hcount : (Nat.toDigits 10 n).length = Binary64.digitCount n := rfl
    omega

/-- **Zero alone begins with a zero.** -/
theorem toDigits_begins {n : Nat} (h : 0 < n) : ∃ c cs, Nat.toDigits 10 n = c :: cs ∧ c ≠ '0' := by
  obtain ⟨c, cs, hcs⟩ := List.exists_cons_of_ne_nil (Nat.toDigits_ne_nil (n := n) (b := 10))
  refine ⟨c, cs, hcs, ?_⟩
  rintro rfl
  have hdigits : ∀ d ∈ cs, d.isDigit := fun d hd =>
    isDigit_toDigits n d (hcs ▸ List.mem_cons_of_mem _ hd)
  -- without its first digit the number would be smaller than its number of digits allows
  have hn : n = ofDigits (digitValues cs) := by
    have hden := ofDigits_toDigits n
    rw [hcs] at hden
    exact hden.symm
  have hlt := ofDigits_lt (digitValues_lt hdigits)
  have hlow := pow_digitCount_le h
  have hcount : Binary64.digitCount n - 1 = (digitValues cs).length := by
    rw [Binary64.digitCount, hcs, digitValues, List.length_map]
    rfl
  rw [hcount] at hlow
  omega

end ImageTransfer.Decimal

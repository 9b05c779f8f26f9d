import ImageTransfer.Decimal.Shortest
import ImageTransfer.Proofs.Decimal.Digits
import Mathlib.Algebra.Order.Field.Power
import Mathlib.Data.Rat.Cast.Order
import Mathlib.Tactic.FieldSimp
import Mathlib.Tactic.Linarith
import Mathlib.Tactic.NormNum
import Mathlib.Tactic.Positivity
import Mathlib.Tactic.Ring

/-!
# Rounding to binary floating point

A positive rational number is divided by the unit of its binade and rounded to a whole number, halves
to the even one (`ofQuotient_rounds`). From this two things follow. What comes out is `Canonical`: its
mantissa has all its bits, or its exponent is the least there is. And every number in the
neighbourhood of a canonical one is rounded to it (`ofQuotient_of_contains`). Just below a power of
two the unit is only half as large, so there the mantissa is rounded up to its bound and halved again.
What lies below half a unit beyond the greatest number stays finite (`ofDecimal_finite`).
-/

namespace ImageTransfer.Binary64

/-! ## Rounding to a whole number -/

/-- The whole number that a number is rounded to: none is nearer, and of two it is the even one. -/
structure Nearest (q : ℚ) (m : Nat) : Prop where
  low : m - 1 / 2 ≤ q
  high : q ≤ m + 1 / 2
  even : q = m - 1 / 2 ∨ q = m + 1 / 2 → m % 2 = 0

theorem Nearest.le {q : ℚ} {m n : Nat} (hm : Nearest q m) (hn : Nearest q n) : n ≤ m := by
  by_contra hlt
  have hle : (m : ℚ) + 1 ≤ n := by exact_mod_cast Nat.lt_of_not_le hlt
  have hlow := hn.low
  have hhigh := hm.high
  -- then the number lies halfway between the two, which are next to each other and both even
  have hq : q = m + 1 / 2 := by linarith
  have hnext : (n : ℚ) = m + 1 := by linarith
  have hsucc : n = m + 1 := by exact_mod_cast hnext
  have heven := hm.even (.inr hq)
  have heven' := hn.even (.inl (by rw [hnext, hq]; ring))
  omega

theorem Nearest.unique {q : ℚ} {m n : Nat} (hm : Nearest q m) (hn : Nearest q n) : m = n :=
  Nat.le_antisymm (hn.le hm) (hm.le hn)

/-- **A quotient is rounded to the nearest whole number.** -/
theorem roundedDiv_nearest (num : Nat) {den : Nat} (hden : 0 < den) :
    Nearest ((num : ℚ) / den) (roundedDiv num den) := by
  have hd : (0 : ℚ) < den := by exact_mod_cast hden
  have hsplit : (num : ℚ) / den = (num / den : Nat) + (num % den : Nat) / (den : ℚ) := by
    have hnum : (num : ℚ) = den * (num / den : Nat) + (num % den : Nat) := by
      exact_mod_cast (Nat.div_add_mod num den).symm
    field_simp
    exact hnum
  have hpart : (0 : ℚ) ≤ (num % den : Nat) / (den : ℚ) := by positivity
  have hpart' : ((num % den : Nat) : ℚ) / den < 1 := by
    rw [div_lt_one hd]
    exact_mod_cast Nat.mod_lt num hden
  have hbelow : ((num % den : Nat) : ℚ) / den < 1 / 2 ↔ 2 * (num % den) < den := by
    rw [div_lt_div_iff₀ hd two_pos, one_mul, mul_comm]
    exact_mod_cast Iff.rfl
  have habove : 1 / 2 < ((num % den : Nat) : ℚ) / den ↔ den < 2 * (num % den) := by
    rw [div_lt_div_iff₀ two_pos hd, one_mul, mul_comm]
    exact_mod_cast Iff.rfl
  unfold roundedDiv
  dsimp only
  rw [hsplit]
  generalize ((num % den : Nat) : ℚ) / den = r at *
  generalize num / den = k at *
  split
  · rename_i h
    have hr := hbelow.2 h
    exact ⟨by linarith, by linarith, fun h => by rcases h with h | h <;> linarith⟩
  · rename_i hnot
    split
    · rename_i h
      have hr := habove.2 h
      have hcast : ((k + 1 : Nat) : ℚ) = k + 1 := Nat.cast_succ k
      exact ⟨by linarith, by linarith, fun h => by rcases h with h | h <;> linarith⟩
    · rename_i hnot'
      have hr : r = 1 / 2 :=
        le_antisymm (not_lt.1 (mt habove.1 hnot')) (not_lt.1 (mt hbelow.1 hnot))
      split
      · rename_i heven
        exact ⟨by linarith, by linarith, fun _ => heven⟩
      · rename_i hodd
        have hcast : ((k + 1 : Nat) : ℚ) = k + 1 := Nat.cast_succ k
        exact ⟨by linarith, by linarith, fun _ => by omega⟩

/-! ## The binade of a number -/

theorem two_zpow_pos (e : Int) : (0 : ℚ) < 2 ^ e := zpow_pos two_pos e

/-- Taking a power of two out of a quotient of whole numbers. -/
theorem scaled_spec (num : Nat) {den : Nat} (hden : 0 < den) (e : Int) :
    0 < (scaled num den e).2 ∧
      ((scaled num den e).1 : ℚ) / (scaled num den e).2 = num / den / 2 ^ e := by
  unfold scaled
  split
  · rename_i he
    obtain ⟨n, rfl⟩ := Int.eq_ofNat_of_zero_le he
    refine ⟨Nat.mul_pos hden (Nat.pow_pos two_pos), ?_⟩
    simp only [Int.toNat_natCast, Nat.pow_eq]
    push_cast
    rw [zpow_natCast, div_div]
  · rename_i he
    obtain ⟨n, rfl⟩ : ∃ n : Nat, e = -n := ⟨(-e).toNat, by omega⟩
    refine ⟨hden, ?_⟩
    simp only [neg_neg, Int.toNat_natCast, Nat.pow_eq]
    push_cast
    rw [zpow_neg, zpow_natCast, div_inv_eq_mul, div_mul_eq_mul_div]

/-- The exponent at which a number has as many bits before the point as a mantissa. -/
def Binade (q : ℚ) (e : Int) : Prop := 2 ^ (e + 52) ≤ q ∧ q < 2 ^ (e + 53)

theorem zpow_le_div_iff {q : ℚ} {e k : Int} : 2 ^ k ≤ q / 2 ^ e ↔ (2 : ℚ) ^ (e + k) ≤ q := by
  rw [le_div_iff₀ (two_zpow_pos e), ← zpow_add₀ two_ne_zero, add_comm]

theorem div_lt_zpow_iff {q : ℚ} {e k : Int} : q / 2 ^ e < 2 ^ k ↔ q < (2 : ℚ) ^ (e + k) := by
  rw [div_lt_iff₀ (two_zpow_pos e), ← zpow_add₀ two_ne_zero, add_comm]

/-- Less than all bits of a mantissa are left, so the exponent is not too small. -/
theorem Binade.le_of_lt {q : ℚ} {e e' : Int} (h : Binade q e') (hq : q / 2 ^ e < 2 ^ (53 : Int)) :
    e' ≤ e := by
  have hlt := (zpow_lt_zpow_iff_right₀ one_lt_two).1 (h.1.trans_lt (div_lt_zpow_iff.1 hq))
  omega

/-- All bits of a mantissa are left, so the exponent is not too large. -/
theorem Binade.ge_of_le {q : ℚ} {e e' : Int} (h : Binade q e') (hq : 2 ^ (52 : Int) ≤ q / 2 ^ e) :
    e ≤ e' := by
  have hlt := (zpow_lt_zpow_iff_right₀ one_lt_two).1 ((zpow_le_div_iff.1 hq).trans_lt h.2)
  omega

/-- The bits of two numbers tell the binade of their quotient up to one. -/
theorem quotient_bounds {num den : Nat} (hnum : 0 < num) (hden : 0 < den) :
    (2 : ℚ) ^ ((num.log2 : Int) - den.log2 - 1) < (num : ℚ) / den ∧
      (num : ℚ) / den < 2 ^ ((num.log2 : Int) - den.log2 + 1) := by
  have hd : (0 : ℚ) < den := by exact_mod_cast hden
  have hnlow : (2 : ℚ) ^ num.log2 ≤ num := by exact_mod_cast Nat.log2_self_le hnum.ne'
  have hnhigh : (num : ℚ) < 2 ^ (num.log2 + 1) := by exact_mod_cast Nat.lt_log2_self
  have hdlow : (2 : ℚ) ^ den.log2 ≤ den := by exact_mod_cast Nat.log2_self_le hden.ne'
  have hdhigh : (den : ℚ) < 2 ^ (den.log2 + 1) := by exact_mod_cast Nat.lt_log2_self
  rw [← zpow_natCast] at hnlow hnhigh hdlow hdhigh
  push_cast at hnhigh hdhigh
  constructor
  · rw [lt_div_iff₀ hd]
    calc (2 : ℚ) ^ ((num.log2 : Int) - den.log2 - 1) * den
        < 2 ^ ((num.log2 : Int) - den.log2 - 1) * 2 ^ ((den.log2 : Int) + 1) :=
          mul_lt_mul_of_pos_left hdhigh (two_zpow_pos _)
      _ = 2 ^ (num.log2 : Int) := by rw [← zpow_add₀ two_ne_zero]; congr 1; ring
      _ ≤ num := hnlow
  · rw [div_lt_iff₀ hd]
    calc (num : ℚ) < 2 ^ ((num.log2 : Int) + 1) := hnhigh
      _ = 2 ^ ((num.log2 : Int) - den.log2 + 1) * 2 ^ (den.log2 : Int) := by
          rw [← zpow_add₀ two_ne_zero]; congr 1; ring
      _ ≤ 2 ^ ((num.log2 : Int) - den.log2 + 1) * den :=
          mul_le_mul_of_nonneg_left hdlow (two_zpow_pos _).le

/-- A mantissa that has been rounded up to its bound is halved, and what is too large is infinite. -/
def settled (negative : Bool) (m : Nat) (e : Int) : Binary64 :=
  let (m, e) := if m = mantissaBound then (m / 2, e + 1) else (m, e)
  if maxExponent < e then .infinite negative else .finite negative m e

/-- **A quotient is rounded at the unit of its binade**, or at the least unit there is. -/
theorem ofQuotient_rounds (negative : Bool) {num den : Nat} (hnum : 0 < num) (hden : 0 < den) :
    ∃ e m, Binade ((num : ℚ) / den) e ∧ Nearest ((num : ℚ) / den / 2 ^ max minExponent e) m ∧
      ofQuotient negative num den = settled negative m (max minExponent e) := by
  obtain ⟨hlow, hhigh⟩ := quotient_bounds hnum hden
  unfold ofQuotient
  dsimp only
  generalize hguess : (num.log2 : Int) - den.log2 - 52 = guess
  rw [show (num.log2 : Int) - den.log2 - 1 = guess + 51 by omega] at hlow
  rw [show (num.log2 : Int) - den.log2 + 1 = guess + 53 by omega] at hhigh
  obtain ⟨hpos, hscaled⟩ := scaled_spec num hden guess
  have hless : (scaled num den guess).1 / (scaled num den guess).2 < Nat.pow 2 52 ↔
      (num : ℚ) / den < 2 ^ (guess + 52) := by
    have hpos' : (0 : ℚ) < (scaled num den guess).2 := by exact_mod_cast hpos
    rw [← div_lt_zpow_iff, ← hscaled, div_lt_iff₀ hpos', Nat.div_lt_iff_lt_mul hpos]
    exact_mod_cast Iff.rfl
  generalize he : (if (scaled num den guess).1 / (scaled num den guess).2 < Nat.pow 2 52 then
    guess - 1 else guess) = e
  -- the guess by the bits is right or too large by one, and the whole part of the quotient tells which
  have hbinade : Binade ((num : ℚ) / den) e := by
    by_cases h : (num : ℚ) / den < 2 ^ (guess + 52)
    · rw [if_pos (hless.2 h)] at he
      subst he
      refine ⟨?_, ?_⟩
      · rw [show guess - 1 + 52 = guess + 51 by ring]
        exact hlow.le
      · rw [show guess - 1 + 53 = guess + 52 by ring]
        exact h
    · rw [if_neg (mt hless.1 h)] at he
      subst he
      exact ⟨not_lt.1 h, hhigh⟩
  obtain ⟨hpos', hscaled'⟩ := scaled_spec num hden (max minExponent e)
  refine ⟨e, _, hbinade, ?_, rfl⟩
  rw [← hscaled']
  exact roundedDiv_nearest _ hpos'

/-! ## Canonical numbers -/

/-- A mantissa and an exponent that belong together: the mantissa has all its bits unless the exponent
is the least there is. -/
structure Fitting (m : Nat) (e : Int) : Prop where
  mantissa : m < 2 ^ 53
  least : minExponent ≤ e
  greatest : e ≤ maxExponent
  full : 2 ^ 52 ≤ m ∨ e = minExponent

/-- A number of the binary format: each is kept in one way only. -/
def Canonical : Binary64 → Prop
  | .finite _ m e => Fitting m e
  | _ => True

theorem canonical_zero (negative : Bool) : (zero negative).Canonical :=
  ⟨by decide, le_refl _, by decide, .inr rfl⟩

theorem mantissaBound_eq : mantissaBound = 2 ^ 53 := rfl

/-- **Rounding gives canonical numbers.** -/
theorem canonical_ofQuotient (negative : Bool) {num den : Nat} (hnum : 0 < num) (hden : 0 < den) :
    (ofQuotient negative num den).Canonical := by
  obtain ⟨e, m, ⟨hlow, hhigh⟩, hm, heq⟩ := ofQuotient_rounds negative hnum hden
  rw [heq]
  generalize hE : max minExponent e = E at hm
  have hle : e ≤ E := hE ▸ le_max_right _ _
  have hmin : minExponent ≤ E := hE ▸ le_max_left _ _
  -- the mantissa is rounded to its bound at most, and has all its bits above the least exponent
  have hbound : m ≤ 2 ^ 53 := by
    have hx : (num : ℚ) / den / 2 ^ E < 2 ^ (53 : Int) :=
      div_lt_zpow_iff.2 (hhigh.trans_le (zpow_le_zpow_right₀ one_le_two (by omega)))
    have hmlow := hm.low
    have hlt : (m : ℚ) < 2 ^ 53 + 1 := by
      rw [zpow_ofNat] at hx
      linarith
    have hnat : m < 2 ^ 53 + 1 := by exact_mod_cast hlt
    omega
  have hfull : 2 ^ 52 ≤ m ∨ E = minExponent := by
    rcases le_or_gt e minExponent with hsmall | hlarge
    · exact .inr (hE ▸ max_eq_left hsmall)
    · have hx : (2 : ℚ) ^ (52 : Int) ≤ (num : ℚ) / den / 2 ^ E := by
        rw [← hE, max_eq_right hlarge.le]
        exact zpow_le_div_iff.2 hlow
      have hmhigh := hm.high
      have hlt : (2 : ℚ) ^ 52 < m + 1 := by
        rw [zpow_ofNat] at hx
        linarith
      have hnat : 2 ^ 52 < m + 1 := by exact_mod_cast hlt
      exact .inl (by omega)
  unfold settled
  rw [mantissaBound_eq]
  by_cases hmax : m = 2 ^ 53
  · rw [if_pos hmax]
    dsimp only
    split
    · trivial
    · rename_i hinf
      exact ⟨by omega, by omega, not_lt.1 hinf, .inl (by omega)⟩
  · rw [if_neg hmax]
    dsimp only
    split
    · trivial
    · rename_i hinf
      exact ⟨by omega, hmin, not_lt.1 hinf, hfull⟩

/-- And so does reading a decimal number. -/
theorem canonical_ofDecimal (negative : Bool) (digits : Nat) (exponent : Int) :
    (ofDecimal negative digits exponent).Canonical := by
  unfold ofDecimal
  split
  · exact canonical_zero negative
  · rename_i hne
    have hpos : 0 < digits := Nat.pos_of_ne_zero hne
    dsimp only
    split
    · trivial
    split
    · exact canonical_zero negative
    split
    · exact canonical_ofQuotient negative (Nat.mul_pos hpos (Nat.pow_pos (by decide))) one_pos
    · exact canonical_ofQuotient negative hpos (Nat.pow_pos (by decide))

theorem settled_of_fitting (negative : Bool) {m : Nat} {e : Int} (h : Fitting m e) :
    settled negative m e = .finite negative m e := by
  rw [settled, if_neg (by rw [mantissaBound_eq]; exact h.mantissa.ne)]
  exact if_neg (not_lt.2 h.greatest)

/-! ## Neighbourhoods -/

/-- A number lies in an interval that is given in quarters of the unit. -/
def Neighbourhood.Contains (nb : Neighbourhood) (e : Int) (q : ℚ) : Prop :=
  if nb.closed then nb.low * 2 ^ (e - 2) ≤ q ∧ q ≤ nb.high * 2 ^ (e - 2)
  else nb.low * 2 ^ (e - 2) < q ∧ q < nb.high * 2 ^ (e - 2)

section

variable {m : Nat} {e : Int} {q : ℚ}

theorem zpow_quarter (e : Int) : (2 : ℚ) ^ (e - 2) = 2 ^ e / 4 := by
  rw [zpow_sub₀ two_ne_zero]
  norm_num

/-- Below a power of two that is not the least the next number is a quarter of a unit away. -/
theorem cast_low (hm : 0 < m) (e : Int) : ((neighbourhood m e).low : ℚ) =
    if m = 2 ^ 52 ∧ minExponent < e then 4 * (m : ℚ) - 1 else 4 * m - 2 := by
  show (((if m = 2 ^ 52 ∧ minExponent < e then 4 * m - 1 else 4 * m - 2 : Nat)) : ℚ) = _
  split
  · rw [Nat.cast_sub (by omega)]
    push_cast
    rfl
  · rw [Nat.cast_sub (by omega)]
    push_cast
    rfl

theorem cast_high (m : Nat) (e : Int) : ((neighbourhood m e).high : ℚ) = 4 * (m : ℚ) + 2 := by
  show ((4 * m + 2 : Nat) : ℚ) = _
  push_cast
  rfl

/-- The bounds of a neighbourhood, whether they belong to it or not. -/
theorem Neighbourhood.Contains.bounds (h : (neighbourhood m e).Contains e q) :
    ((neighbourhood m e).low : ℚ) / 4 ≤ q / 2 ^ e ∧ q / 2 ^ e ≤ m + 1 / 2 := by
  have hpos := two_zpow_pos e
  have hle : (neighbourhood m e).low * (2 : ℚ) ^ (e - 2) ≤ q ∧
      q ≤ (neighbourhood m e).high * 2 ^ (e - 2) := by
    unfold Contains at h
    split at h
    · exact h
    · exact ⟨h.1.le, h.2.le⟩
  rw [cast_high, zpow_quarter] at hle
  constructor
  · rw [le_div_iff₀ hpos]
    linarith [hle.1]
  · rw [div_le_iff₀ hpos]
    linarith [hle.2]

/-- **What lies in the neighbourhood of a mantissa is rounded to it.** -/
theorem Neighbourhood.Contains.nearest (hm : 0 < m) (h : (neighbourhood m e).Contains e q) :
    Nearest (q / 2 ^ e) m := by
  obtain ⟨hlow, hhigh⟩ := h.bounds
  have hlow' : (m : ℚ) - 1 / 2 ≤ (neighbourhood m e).low / 4 := by
    rw [cast_low hm]
    split <;> linarith
  refine ⟨hlow'.trans hlow, hhigh, fun hends => ?_⟩
  have hpos := two_zpow_pos e
  by_contra hodd
  -- an odd mantissa has an open neighbourhood
  have hopen : (neighbourhood m e).closed = false := beq_eq_false_iff_ne.2 hodd
  rw [Contains, hopen, if_neg Bool.false_ne_true, cast_high, zpow_quarter] at h
  rcases hends with hq | hq <;> rw [div_eq_iff hpos.ne'] at hq
  · have hge : ((m : ℚ) - 1 / 2) * 2 ^ e ≤ (neighbourhood m e).low / 4 * 2 ^ e :=
      mul_le_mul_of_nonneg_right hlow' hpos.le
    linarith [h.1]
  · linarith [h.2]

/-- Just below a power of two the unit is only half as large, so there is one bit too many. -/
theorem Neighbourhood.Contains.nearest_below (h : (neighbourhood m e).Contains e q)
    (hfull : 2 ^ 52 ≤ m) (he : minExponent < e) (hq : q / 2 ^ e < 2 ^ 52) :
    m = 2 ^ 52 ∧ Nearest (q / 2 ^ (e - 1)) (2 ^ 53) := by
  have hm : 0 < m := by omega
  have hpower : m = 2 ^ 52 := by
    have hlow := (h.nearest hm).low
    have hlt : (m : ℚ) < 2 ^ 52 + 1 := by linarith
    have hnat : m < 2 ^ 52 + 1 := by exact_mod_cast hlt
    omega
  have hcast : (m : ℚ) = 2 ^ 52 := by rw [hpower]; norm_num
  have hlow := h.bounds.1
  rw [cast_low hm, if_pos ⟨hpower, he⟩, hcast] at hlow
  have hhalf : q / 2 ^ (e - 1) = 2 * (q / 2 ^ e) := by
    rw [zpow_sub_one₀ two_ne_zero]
    field_simp
  refine ⟨hpower, ?_⟩
  rw [hhalf]
  refine ⟨?_, ?_, fun _ => by norm_num⟩
  · push_cast
    linarith
  · push_cast
    linarith

/-- **A quotient in the neighbourhood of a canonical number is rounded to that number.** -/
theorem ofQuotient_of_contains (negative : Bool) {num den : Nat} (hnum : 0 < num) (hden : 0 < den)
    (hfit : Fitting m e) (hm : 0 < m) (hq : (neighbourhood m e).Contains e ((num : ℚ) / den)) :
    ofQuotient negative num den = .finite negative m e := by
  obtain ⟨e₀, m₀, hbinade, hnear, heq⟩ := ofQuotient_rounds negative hnum hden
  have hqnear := hq.nearest hm
  generalize (num : ℚ) / den = x at *
  have hbelow : e₀ ≤ e := by
    have hmq : (m : ℚ) + 1 ≤ 2 ^ 53 := by exact_mod_cast hfit.mantissa
    have hhigh := hqnear.high
    exact hbinade.le_of_lt (by rw [zpow_ofNat]; linarith)
  rw [heq]
  have hsame (hE : max minExponent e₀ = e) :
      settled negative m₀ (max minExponent e₀) = .finite negative m e := by
    rw [hE] at hnear ⊢
    rw [hnear.unique hqnear, settled_of_fitting negative hfit]
  have hleast := hfit.least
  rcases eq_or_lt_of_le hleast with hmin | hlarge
  · exact hsame (by omega)
  have hfull : 2 ^ 52 ≤ m := hfit.full.resolve_right hlarge.ne'
  by_cases hx : (2 : ℚ) ^ (52 : Int) ≤ x / 2 ^ e
  · have habove := hbinade.ge_of_le hx
    exact hsame (by omega)
  · rw [zpow_ofNat, not_le] at hx
    obtain ⟨hpower, hbound⟩ := hq.nearest_below hfull hlarge hx
    -- the number is in the binade below, where it is rounded up to the bound of mantissas
    have hprev : e - 1 ≤ e₀ := by
      have hlow := hbound.low
      push_cast at hlow
      exact hbinade.ge_of_le (by rw [zpow_ofNat]; linarith)
    have hnext : e₀ < e := by
      by_contra hnot
      have hsame' : e₀ = e := by omega
      rw [← hsame', ← not_le, ← zpow_ofNat, zpow_le_div_iff] at hx
      exact hx hbinade.1
    have hE : max minExponent e₀ = e - 1 := by omega
    rw [hE] at hnear ⊢
    rw [hnear.unique hbound, settled, if_pos mantissaBound_eq.symm, hpower, sub_add_cancel]
    exact if_neg (not_lt.2 hfit.greatest)

/-! ## Decimal numbers -/

/-- How many digits a number has tells its order of magnitude. -/
theorem decimal_bounds {digits : Nat} (hd : 0 < digits) (exponent : Int) :
    (10 : ℚ) ^ (exponent + digitCount digits - 1) ≤ digits * 10 ^ exponent ∧
      digits * 10 ^ exponent < (10 : ℚ) ^ (exponent + digitCount digits) := by
  have hten : (0 : ℚ) < 10 ^ exponent := zpow_pos (by norm_num) exponent
  have hcount := Decimal.digitCount_pos digits
  have hlow : (10 : ℚ) ^ (digitCount digits - 1) ≤ digits := by
    exact_mod_cast Decimal.pow_digitCount_le hd
  have hhigh : (digits : ℚ) < 10 ^ digitCount digits := by
    exact_mod_cast Decimal.lt_pow_digitCount digits
  constructor
  · calc (10 : ℚ) ^ (exponent + digitCount digits - 1)
        = 10 ^ (((digitCount digits - 1 : Nat) : Int) + exponent) := by congr 1; omega
      _ = 10 ^ (digitCount digits - 1) * 10 ^ exponent := by
          rw [zpow_add₀ (by norm_num), zpow_natCast]
      _ ≤ digits * 10 ^ exponent := mul_le_mul_of_nonneg_right hlow hten.le
  · calc (digits : ℚ) * 10 ^ exponent < 10 ^ digitCount digits * 10 ^ exponent :=
          mul_lt_mul_of_pos_right hhigh hten
      _ = 10 ^ (exponent + digitCount digits) := by
          rw [zpow_add₀ (by norm_num), zpow_natCast, mul_comm]

/-- The powers of ten at which numbers are cut off are beyond all powers of two of the format. -/
theorem two_pow_le_ten_pow : (2 : ℚ) ^ 1075 ≤ 10 ^ 400 := by
  calc (2 : ℚ) ^ 1075 ≤ 2 ^ (3 * 400) := pow_le_pow_right₀ one_le_two (by norm_num)
    _ = 8 ^ 400 := by rw [pow_mul]; norm_num
    _ ≤ 10 ^ 400 := pow_le_pow_left₀ (by norm_num) (by norm_num) _

/-- **A decimal number in the neighbourhood of a canonical number is read as that number.** -/
theorem ofDecimal_of_contains (negative : Bool) {digits : Nat} {exponent : Int} (hd : 0 < digits)
    (hfit : Fitting m e) (hm : 0 < m)
    (hq : (neighbourhood m e).Contains e ((digits : ℚ) * 10 ^ exponent)) :
    ofDecimal negative digits exponent = .finite negative m e := by
  obtain ⟨hlow, hhigh⟩ := decimal_bounds hd exponent
  have hnear := hq.nearest hm
  have hone : (1 : ℚ) ≤ m := by exact_mod_cast hm
  have hmax : (m : ℚ) + 1 ≤ 2 ^ 53 := by exact_mod_cast hfit.mantissa
  have hgreat : (digits : ℚ) * 10 ^ exponent < 2 ^ (e + 53) := by
    rw [← div_lt_zpow_iff, zpow_ofNat]
    linarith [hnear.high]
  have hleast : (2 : ℚ) ^ (e + -1) ≤ digits * 10 ^ exponent := by
    rw [← zpow_le_div_iff]
    have hhalf : (2 : ℚ) ^ (-1 : Int) = 1 / 2 := by norm_num
    linarith [hnear.low]
  unfold ofDecimal
  dsimp only
  rw [if_neg hd.ne', if_neg, if_neg]
  · split
    · rename_i hexp
      obtain ⟨n, rfl⟩ := Int.eq_ofNat_of_zero_le hexp
      refine ofQuotient_of_contains negative (Nat.mul_pos hd (Nat.pow_pos (by decide))) one_pos
        hfit hm ?_
      simpa using hq
    · rename_i hexp
      obtain ⟨n, rfl⟩ : ∃ n : Nat, exponent = -n := ⟨(-exponent).toNat, by omega⟩
      refine ofQuotient_of_contains negative hd (Nat.pow_pos (by decide)) hfit hm ?_
      simpa [div_eq_mul_inv] using hq
  · -- what is cut off as too small is nearer to zero than any number of the format
    intro hsmall
    have hbound : (2 : ℚ) ^ (-1075 : Int) ≤ 2 ^ (e + -1) :=
      zpow_le_zpow_right₀ one_le_two (by have : -1074 ≤ e := hfit.least; omega)
    have hten : (10 : ℚ) ^ (exponent + digitCount digits) ≤ 10 ^ (-400 : Int) :=
      zpow_le_zpow_right₀ (by norm_num) (by omega)
    have hcut : (10 : ℚ) ^ (-400 : Int) ≤ 2 ^ (-1075 : Int) := by
      rw [zpow_neg, zpow_neg, zpow_ofNat, zpow_ofNat]
      exact inv_anti₀ (by positivity) two_pow_le_ten_pow
    exact lt_irrefl _ (((hbound.trans hleast).trans_lt hhigh).trans_le (hten.trans hcut))
  · -- and what is cut off as too large is beyond all of them
    intro hlarge
    have hbound : (2 : ℚ) ^ (e + 53) ≤ 2 ^ (1075 : Int) :=
      zpow_le_zpow_right₀ one_le_two (by have : e ≤ 971 := hfit.greatest; omega)
    have hten : (10 : ℚ) ^ (400 : Int) ≤ 10 ^ (exponent + digitCount digits - 1) :=
      zpow_le_zpow_right₀ (by norm_num) (by omega)
    rw [zpow_ofNat] at hbound hten
    exact lt_irrefl _
      ((((hten.trans hlow).trans_lt hgreat).trans_le hbound).trans_le two_pow_le_ten_pow)

end

/-! ## The range -/

/-- The number from which on numbers are rounded to infinity: half a unit beyond the greatest finite
one. -/
def rangeBound : ℚ := (2 ^ 53 - 1 / 2) * 2 ^ 971

theorem rangeBound_lt : rangeBound < 2 ^ (1024 : Int) := by
  have hsplit : (2 : ℚ) ^ (1024 : Int) = 2 ^ 53 * 2 ^ 971 := by
    rw [zpow_ofNat, ← pow_add]
  rw [hsplit, rangeBound]
  exact mul_lt_mul_of_pos_right (sub_lt_self _ one_half_pos) (pow_pos two_pos _)

theorem settled_finite (negative : Bool) {m : Nat} {e : Int}
    (h : e < maxExponent ∨ e = maxExponent ∧ m < 2 ^ 53) :
    ∃ m' e', settled negative m e = .finite negative m' e' := by
  unfold settled
  rw [mantissaBound_eq]
  by_cases hm : m = 2 ^ 53
  · rw [if_pos hm]
    exact ⟨_, _, if_neg (by omega)⟩
  · rw [if_neg hm]
    exact ⟨_, _, if_neg (by omega)⟩

/-- **A quotient below the bound is rounded to a finite number.** -/
theorem ofQuotient_finite (negative : Bool) {num den : Nat} (hnum : 0 < num) (hden : 0 < den)
    (h : (num : ℚ) / den < rangeBound) :
    ∃ m e, ofQuotient negative num den = .finite negative m e := by
  obtain ⟨e, m, hbinade, hnear, heq⟩ := ofQuotient_rounds negative hnum hden
  generalize (num : ℚ) / den = q at *
  have hmax : maxExponent = 971 := rfl
  have hmin : minExponent = -1074 := rfl
  have hle : e ≤ 971 := by
    have hlt : (2 : ℚ) ^ (e + 52) < 2 ^ (1024 : Int) := hbinade.1.trans_lt (h.trans rangeBound_lt)
    have := (zpow_lt_zpow_iff_right₀ one_lt_two).1 hlt
    omega
  rw [heq]
  refine settled_finite negative ?_
  rcases lt_or_eq_of_le hle with hless | rfl
  · exact .inl (by omega)
  · -- in the last binade the mantissa is not rounded up to its bound
    have hlast : max minExponent 971 = (971 : Int) := by omega
    rw [hlast] at hnear ⊢
    have hq : q / 2 ^ (971 : Int) < 2 ^ 53 - 1 / 2 := by
      rw [div_lt_iff₀ (two_zpow_pos _), zpow_ofNat]
      exact h
    have hlow := hnear.low
    have hlt : (m : ℚ) < 2 ^ 53 := by linarith
    exact .inr ⟨hmax.symm, by exact_mod_cast hlt⟩

/-- **And so is a decimal number.** -/
theorem ofDecimal_finite (negative : Bool) {digits : Nat} {exponent : Int}
    (h : (digits : ℚ) * 10 ^ exponent < rangeBound) :
    ∃ m e, ofDecimal negative digits exponent = .finite negative m e := by
  unfold ofDecimal
  dsimp only
  split
  · exact ⟨_, _, rfl⟩
  · rename_i hne
    have hd : 0 < digits := Nat.pos_of_ne_zero hne
    rw [if_neg]
    · split
      · exact ⟨_, _, rfl⟩
      split
      · rename_i hexp
        obtain ⟨n, rfl⟩ := Int.eq_ofNat_of_zero_le hexp
        refine ofQuotient_finite negative (Nat.mul_pos hd (Nat.pow_pos (by decide))) one_pos ?_
        simpa using h
      · rename_i hexp
        obtain ⟨n, rfl⟩ : ∃ n : Nat, exponent = -n := ⟨(-exponent).toNat, by omega⟩
        refine ofQuotient_finite negative hd (Nat.pow_pos (by decide)) ?_
        simpa [div_eq_mul_inv] using h
    · -- what is cut off as too large is beyond the bound
      intro hlarge
      have hten : (10 : ℚ) ^ (400 : Int) ≤ 10 ^ (exponent + digitCount digits - 1) :=
        zpow_le_zpow_right₀ (by norm_num) (by omega)
      have hbound : rangeBound < 2 ^ (1075 : Int) :=
        rangeBound_lt.trans_le (zpow_le_zpow_right₀ one_le_two (by decide))
      rw [zpow_ofNat] at hten hbound
      have hlow := (decimal_bounds hd exponent).1
      exact lt_irrefl _ ((((hten.trans hlow).trans_lt h).trans hbound).trans_le two_pow_le_ten_pow)

end ImageTransfer.Binary64

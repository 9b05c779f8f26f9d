import ImageTransfer.Archive.FileTime
import ImageTransfer.Proofs.Decimal.Rounding
import Mathlib.Data.Rat.Floor

/-!
# How exactly times of files are told

A number that is rounded is off by half the unit of its binade at most (`rounded_near`), and a whole
number of no more than 53 bits is not off at all (`rounded_intCast`). So the fraction of a second is off
by much less than a microsecond, and what decides is how the sum is rounded. As long as half its unit is
less than a microsecond, the time does not reach the second before or after it, and its seconds are the
exact ones (`wholePart_toldTime`).
-/

namespace ImageTransfer

namespace Binary64

/-! ## Rounded numbers -/

theorem size_eq (m : Nat) (e : Int) : size m e = (m * 2 ^ e : ℚ) := by
  unfold size
  split
  · rename_i he
    obtain ⟨n, rfl⟩ := Int.eq_ofNat_of_zero_le he
    rw [Rat.mkRat_eq_div, Int.toNat_natCast, Nat.pow_eq, zpow_natCast]
    push_cast
    exact div_one _
  · rename_i he
    obtain ⟨n, rfl⟩ : ∃ n : Nat, e = -n := ⟨(-e).toNat, by omega⟩
    rw [Rat.mkRat_eq_div, neg_neg, Int.toNat_natCast, Nat.pow_eq, zpow_neg, zpow_natCast]
    push_cast
    exact div_eq_mul_inv _ _

/-- A mantissa that has been halved denotes the same number. -/
theorem size_of_settled {negative negative' : Bool} {m m' : Nat} {e e' : Int}
    (h : settled negative m e = .finite negative' m' e') : size m' e' = (m * 2 ^ e : ℚ) := by
  unfold settled at h
  rw [mantissaBound_eq] at h
  by_cases hm : m = 2 ^ 53
  · rw [if_pos hm] at h
    dsimp only at h
    split at h
    · cases h
    · cases h
      rw [size_eq, hm, zpow_add_one₀ two_ne_zero, show 2 ^ 53 / 2 = 2 ^ 52 from rfl]
      push_cast
      ring
  · rw [if_neg hm] at h
    dsimp only at h
    split at h
    · cases h
    · cases h
      exact size_eq _ _

theorem rounded_of_pos {q : ℚ} (hq : 0 < q) : rounded q = roundedQuotient q.num.natAbs q.den :=
  if_neg (Rat.num_pos.2 hq).not_gt

theorem rounded_zero : rounded 0 = 0 := rfl

theorem rounded_neg (q : ℚ) : rounded (-q) = -rounded q := by
  have hsize : roundedQuotient (-q).num.natAbs (-q).den = roundedQuotient q.num.natAbs q.den := by
    rw [Rat.num_neg_eq_neg_num, Rat.den_neg_eq_den, Int.natAbs_neg]
  have hnum : (-q).num = -q.num := Rat.num_neg_eq_neg_num q
  unfold rounded
  dsimp only
  rw [hsize]
  rcases lt_trichotomy q.num 0 with hneg | hzero | hpos
  · rw [if_neg (by omega), if_pos hneg, neg_neg]
  · rw [if_neg (by omega), if_neg (by omega), hzero]
    exact neg_zero.symm
  · rw [if_pos (by omega), if_neg (by omega)]

theorem lt_rangeBound {q : ℚ} (h : q < 2 ^ (971 : Int)) : q < rangeBound := by
  refine h.trans_le ?_
  rw [rangeBound, zpow_ofNat]
  exact le_mul_of_one_le_left (pow_pos two_pos _).le (by norm_num)

theorem natAbs_div_den {q : ℚ} (hq : 0 < q) : (q.num.natAbs : ℚ) / q.den = q := by
  rw [Nat.cast_natAbs, abs_of_pos (Rat.num_pos.2 hq)]
  exact Rat.num_div_den q

/-- **A positive number is rounded at the unit of its binade**, if it is not out of range. -/
theorem rounded_cases {q : ℚ} (hq : 0 < q) :
    (rangeBound ≤ q ∧ rounded q = q) ∨
      ∃ e m, Binade q e ∧ Nearest (q / 2 ^ max minExponent e) m ∧
        rounded q = m * 2 ^ max minExponent e := by
  have hpos : 0 < q.num.natAbs := Int.natAbs_pos.2 (Rat.num_pos.2 hq).ne'
  obtain ⟨e, m, hbinade, hnear, heq⟩ := ofQuotient_rounds false hpos q.den_pos
  rw [natAbs_div_den hq] at hbinade hnear
  have hsplit : mkRat q.num.natAbs q.den = q := by
    rw [Rat.mkRat_eq_div, Int.cast_natCast]
    exact natAbs_div_den hq
  have hbeyond (h : ∀ m' e', ofQuotient false q.num.natAbs q.den ≠ .finite false m' e') :
      rangeBound ≤ q := by
    by_contra hlt
    obtain ⟨m', e', hfinite⟩ :=
      ofQuotient_finite false hpos q.den_pos (by rwa [natAbs_div_den hq, ← not_le])
    exact h m' e' hfinite
  rw [rounded_of_pos hq, roundedQuotient, if_neg hpos.ne']
  rcases hresult : ofQuotient false q.num.natAbs q.den with _ | negative | ⟨negative, m', e'⟩
  · exact .inl ⟨hbeyond (fun _ _ h => by cases hresult.symm.trans h), hsplit⟩
  · exact .inl ⟨hbeyond (fun _ _ h => by cases hresult.symm.trans h), hsplit⟩
  · exact .inr ⟨e, m, hbinade, hnear, size_of_settled (heq.symm.trans hresult)⟩

/-- How much a number is off does not depend on its sign. -/
theorem abs_rounded_sub (q : ℚ) : |rounded q - q| = |rounded (|q|) - (|q|)| := by
  rcases abs_cases q with ⟨habs, -⟩ | ⟨habs, -⟩
  · rw [habs]
  · rw [habs, rounded_neg, ← neg_sub', abs_neg]

theorem abs_rounded (q : ℚ) : |rounded q| = |rounded (|q|)| := by
  rcases abs_cases q with ⟨habs, -⟩ | ⟨habs, -⟩
  · rw [habs]
  · rw [habs, rounded_neg, abs_neg]

theorem rounded_near_of_pos {q : ℚ} {k : Int} (hq : 2 ^ (-200 : Int) ≤ q) (hlt : q < 2 ^ (k + 53))
    (hk : k ≤ 900) : |rounded q - q| ≤ 2 ^ k / 2 := by
  have hrange : q < rangeBound :=
    lt_rangeBound (hlt.trans_le (zpow_le_zpow_right₀ one_le_two (by omega)))
  obtain ⟨e, m, hbinade, hnear, heq⟩ :=
    (rounded_cases ((two_zpow_pos _).trans_le hq)).resolve_left fun h => h.1.not_gt hrange
  have hleast : max minExponent e = e := by
    have hlarge := (zpow_lt_zpow_iff_right₀ one_lt_two).1 (hq.trans_lt hbinade.2)
    have hmin : minExponent = -1074 := rfl
    omega
  have he : e ≤ k := by
    have := (zpow_lt_zpow_iff_right₀ one_lt_two).1 (hbinade.1.trans_lt hlt)
    omega
  rw [hleast] at hnear heq
  have hunit := two_zpow_pos e
  have hlow := hnear.low
  have hhigh := hnear.high
  rw [le_div_iff₀ hunit] at hlow
  rw [div_le_iff₀ hunit] at hhigh
  have hoff : |rounded q - q| ≤ 2 ^ e / 2 := by
    rw [heq, abs_le]
    constructor <;> linarith
  have hle : (2 : ℚ) ^ e ≤ 2 ^ k := zpow_le_zpow_right₀ one_le_two he
  linarith

/-- **A number is off by half the unit of its binade at most**, unless it is among the least. -/
theorem rounded_near {q : ℚ} {k : Int} (hq : 2 ^ (-200 : Int) ≤ |q|) (hlt : |q| < 2 ^ (k + 53))
    (hk : k ≤ 900) : |rounded q - q| ≤ 2 ^ k / 2 := by
  rw [abs_rounded_sub]
  exact rounded_near_of_pos hq hlt hk

/-- **A whole number of 53 bits is not rounded.** -/
theorem rounded_natCast {n : Nat} (h : n < 2 ^ 53) : rounded n = n := by
  rcases Nat.eq_zero_or_pos n with rfl | hpos
  · exact rounded_zero
  have hq : (0 : ℚ) < n := by exact_mod_cast hpos
  have hlt : (n : ℚ) < 2 ^ (53 : Int) := by
    rw [zpow_ofNat]
    exact_mod_cast h
  have hrange : (n : ℚ) < rangeBound :=
    lt_rangeBound (hlt.trans_le (zpow_le_zpow_right₀ one_le_two (by decide)))
  obtain ⟨e, m, hbinade, hnear, heq⟩ :=
    (rounded_cases hq).resolve_left fun h => h.1.not_gt hrange
  have he : e ≤ 0 := by
    have := (zpow_lt_zpow_iff_right₀ one_lt_two).1 (hbinade.1.trans_lt hlt)
    omega
  -- the number is a multiple of the unit of its binade, so it is the nearest one
  obtain ⟨k, hk⟩ : ∃ k : Nat, max minExponent e = -k := by
    have hleast : minExponent = -1074 := rfl
    exact ⟨(-max minExponent e).toNat, by omega⟩
  rw [hk] at hnear heq
  have hwhole : (n : ℚ) / 2 ^ (-k : Int) = (n * 2 ^ k : Nat) := by
    rw [zpow_neg, zpow_natCast, div_inv_eq_mul]
    push_cast
    rfl
  have hself : Nearest ((n : ℚ) / 2 ^ (-k : Int)) (n * 2 ^ k) := by
    rw [hwhole]
    exact ⟨by linarith, by linarith, fun h => by rcases h with h | h <;> linarith⟩
  rw [heq, hnear.unique hself, ← hwhole]
  exact div_mul_cancel₀ _ (two_zpow_pos _).ne'

theorem rounded_intCast {n : Int} (h : n.natAbs < 2 ^ 53) : rounded n = n := by
  cases n with
  | ofNat n => exact rounded_natCast h
  | negSucc n =>
      have hsucc : rounded ((n + 1 : Nat) : ℚ) = (n + 1 : Nat) := rounded_natCast h
      rw [Int.cast_negSucc, rounded_neg, hsucc]

theorem abs_rounded_le_of_pos {q : ℚ} (hq : 0 < q) : |rounded q| ≤ 2 * q := by
  rcases rounded_cases hq with ⟨-, heq⟩ | ⟨e, m, -, hnear, heq⟩
  · rw [heq, abs_of_pos hq]
    linarith
  generalize max minExponent e = E at hnear heq
  have hunit := two_zpow_pos E
  have hlow := hnear.low
  rw [heq, abs_of_nonneg (by positivity)]
  rcases Nat.eq_zero_or_pos m with rfl | hm
  · rw [Nat.cast_zero, zero_mul]
    positivity
  · -- what is not rounded to nothing is half a unit at least
    have hone : (1 : ℚ) ≤ m := by exact_mod_cast hm
    have hle : (m : ℚ) ≤ 2 * (q / 2 ^ E) := by linarith
    calc (m : ℚ) * 2 ^ E ≤ 2 * (q / 2 ^ E) * 2 ^ E := mul_le_mul_of_nonneg_right hle hunit.le
      _ = 2 * q := by rw [mul_assoc, div_mul_cancel₀ _ hunit.ne']

/-- **Rounding at most doubles a number.** -/
theorem abs_rounded_le (q : ℚ) : |rounded q| ≤ 2 * |q| := by
  rcases eq_or_ne q 0 with rfl | hq
  · rw [rounded_zero, abs_zero, mul_zero]
  · rw [abs_rounded]
    exact abs_rounded_le_of_pos (abs_pos.2 hq)

end Binary64

namespace Archive

open Binary64

/-! ## Times -/

/-- What is told of the microseconds since the last whole second, in seconds. -/
def toldFraction (microseconds : Int) : ℚ :=
  rounded (nanosecond * mkRat (microseconds % 1000000 * 1000) 1)

theorem toldTime_eq (t : Int) :
    toldTime t = rounded (rounded ((t / 1000000 : Int) : ℚ) + toldFraction t) := by
  have hwhole : mkRat (t / 1000000) 1 = ((t / 1000000 : Int) : ℚ) := by
    rw [Rat.mkRat_eq_div]
    simp
  rw [toldTime, toldFraction, hwhole]

theorem nanosecond_near : |nanosecond - 1 / 10 ^ 9| ≤ 1 / 10 ^ 20 := by
  have hvalue : nanosecond = mkRat 4835703278458517 (2 ^ 82) := by decide +kernel
  rw [hvalue, Rat.mkRat_eq_div, abs_le]
  norm_num

/-- A fraction of a second is off by much less than a microsecond. -/
theorem toldFraction_near (t : Int) :
    |toldFraction t - (t % 1000000 : Int) / 10 ^ 6| ≤ 1 / 10 ^ 8 := by
  have hk₀ : 0 ≤ t % 1000000 := Int.emod_nonneg t (by decide)
  have hk₁ : t % 1000000 < 1000000 := Int.emod_lt_of_pos t (by decide)
  unfold toldFraction
  generalize t % 1000000 = k at hk₀ hk₁
  rcases hk₀.eq_or_lt with rfl | hpos
  · norm_num [rounded_zero]
  have hone : (1 : ℚ) ≤ k := by exact_mod_cast hpos
  have hlast : (k : ℚ) ≤ 999999 := by exact_mod_cast Int.le_of_lt_add_one hk₁
  have hns : mkRat (k * 1000) 1 = (k : ℚ) * 1000 := by
    rw [Rat.mkRat_eq_div]
    push_cast
    exact div_one _
  rw [hns]
  obtain ⟨hlow, hhigh⟩ := abs_le.1 nanosecond_near
  -- first the product, then what it is rounded to
  have hproduct : |nanosecond * (k * 1000) - k / 10 ^ 6| ≤ 1 / 10 ^ 9 := by
    rw [abs_le]
    constructor <;> nlinarith
  obtain ⟨hlow', hhigh'⟩ := abs_le.1 hproduct
  have hrounded := rounded_near (q := nanosecond * (k * 1000)) (k := -52) ?_ ?_ (by decide)
  · obtain ⟨hlow'', hhigh''⟩ := abs_le.1 hrounded
    norm_num at hlow'' hhigh''
    rw [abs_le]
    constructor <;> linarith
  · rw [abs_of_nonneg (by linarith)]
    norm_num
    linarith
  · rw [abs_of_nonneg (by linarith)]
    norm_num
    linarith

/-! ## Seconds -/

theorem wholePart_of_nonneg {q : ℚ} (h : 0 ≤ q) : wholePart q = ⌊q⌋ := by
  rw [wholePart, Int.tdiv_eq_ediv_of_nonneg (Rat.num_nonneg.2 h)]
  exact Rat.floor_def'.symm

theorem wholePart_neg (q : ℚ) : wholePart (-q) = -wholePart q := by
  rw [wholePart, wholePart, Rat.num_neg_eq_neg_num, Rat.den_neg_eq_den, Int.neg_tdiv]

/-- Between two whole numbers the one that is nearer to zero is the whole part. -/
theorem wholePart_between {q : ℚ} {n : Int} (hlow : n < q) (hhigh : q < n + 1) :
    wholePart q = if 0 ≤ n then n else n + 1 := by
  split
  · rename_i hn
    have hn' : (0 : ℚ) ≤ n := by exact_mod_cast hn
    rw [wholePart_of_nonneg (hn'.trans hlow.le), Int.floor_eq_iff]
    exact ⟨hlow.le, hhigh⟩
  · rename_i hn
    have hn' : (n : ℚ) + 1 ≤ 0 := by exact_mod_cast Int.not_le.1 hn
    have hfloor : wholePart (-q) = -(n + 1) := by
      rw [wholePart_of_nonneg (by linarith), Int.floor_eq_iff]
      push_cast
      constructor <;> linarith
    rw [wholePart_neg] at hfloor
    omega

theorem wholePart_intCast (n : Int) : wholePart n = n := by
  rw [wholePart, Rat.num_intCast, Rat.den_intCast]
  exact Int.tdiv_one n

/-- A time that is not a whole number of seconds is not told as one either: it stays between the same
two seconds. -/
theorem toldTime_between {t : Int} (h : t.natAbs < 2 ^ 34 * 1000000) (hpart : t % 1000000 ≠ 0) :
    ((t / 1000000 : Int) : ℚ) < toldTime t ∧ toldTime t < (t / 1000000 : Int) + 1 := by
  have hk : 1 ≤ t % 1000000 ∧ t % 1000000 ≤ 999999 := by omega
  have hs : -2 ^ 34 ≤ t / 1000000 ∧ t / 1000000 < 2 ^ 34 := by omega
  have hfraction := toldFraction_near t
  rw [toldTime_eq, rounded_intCast (by omega)]
  generalize toldFraction t = p at hfraction ⊢
  generalize t % 1000000 = k at hk hfraction
  generalize t / 1000000 = s at hs ⊢
  have hone : (1 : ℚ) ≤ k := by exact_mod_cast hk.1
  have hlast : (k : ℚ) ≤ 999999 := by exact_mod_cast hk.2
  have hleast : (-2 ^ 34 : ℚ) ≤ s := by exact_mod_cast hs.1
  have hgreatest : (s : ℚ) + 1 ≤ 2 ^ 34 := by exact_mod_cast hs.2
  obtain ⟨hlow, hhigh⟩ := abs_le.1 hfraction
  have hrounded := rounded_near (q := s + p) (k := -19) ?_ ?_ (by decide)
  · obtain ⟨hlow', hhigh'⟩ := abs_le.1 hrounded
    norm_num at hlow' hhigh'
    constructor <;> linarith
  · -- the sum is no nearer to zero than the fraction of a second is to a whole one
    norm_num
    rw [le_abs]
    rcases le_or_gt 0 s with hsign | hsign
    · have hsign' : (0 : ℚ) ≤ s := by exact_mod_cast hsign
      exact .inl (by linarith)
    · have hsign' : (s : ℚ) + 1 ≤ 0 := by exact_mod_cast hsign
      exact .inr (by linarith)
  · norm_num
    rw [abs_lt]
    constructor <;> linarith

/-- **The seconds of a time are told exactly**, if it is less than `2 ^ 34` seconds away from 1970. -/
theorem wholePart_toldTime {t : Int} (h : t.natAbs < 2 ^ 34 * 1000000) :
    wholePart (toldTime t) = t.tdiv 1000000 := by
  rw [Int.tdiv_eq_ediv]
  by_cases hpart : t % 1000000 = 0
  · have hzero : toldFraction t = 0 := by
      rw [toldFraction, hpart]
      norm_num [rounded_zero]
    have hbound : (t / 1000000).natAbs < 2 ^ 53 := by omega
    rw [toldTime_eq, hzero, rounded_intCast hbound, add_zero, rounded_intCast hbound,
      wholePart_intCast, if_pos (.inr (Int.dvd_of_emod_eq_zero hpart)), add_zero]
  · obtain ⟨hlow, hhigh⟩ := toldTime_between h hpart
    have hdvd : ¬ (1000000 : Int) ∣ t := fun hdvd => hpart (Int.emod_eq_zero_of_dvd hdvd)
    rw [wholePart_between hlow hhigh]
    by_cases hsign : 0 ≤ t
    · rw [if_pos (by omega), if_pos (.inl hsign), add_zero]
    · rw [if_neg (by omega), if_neg (by tauto)]
      rfl

/-- From there on it may be the next second that is told. -/
example : wholePart (toldTime 17179869183999999) = 17179869183 ∧
    wholePart (toldTime 17179869184999999) = 17179869185 := by decide +kernel

theorem natAbs_wholePart_le {q : ℚ} {n : Nat} (h : |q| ≤ n) : (wholePart q).natAbs ≤ n := by
  have hden : (0 : ℚ) < q.den := by exact_mod_cast q.den_pos
  have hsize : |q| = q.num.natAbs / q.den := by
    conv_lhs => rw [← Rat.num_div_den q]
    rw [abs_div, abs_of_pos hden, Nat.cast_natAbs, Int.cast_abs]
  rw [hsize, div_le_iff₀ hden] at h
  rw [wholePart, Int.natAbs_tdiv, Int.natAbs_natCast]
  refine Nat.div_le_of_le_mul ?_
  rw [Nat.mul_comm]
  exact_mod_cast h

/-- However far away a time is, its seconds do not get out of hand. -/
theorem natAbs_wholePart_toldTime (t : Int) :
    (wholePart (toldTime t)).natAbs ≤ 4 * (t / 1000000).natAbs + 4 := by
  refine natAbs_wholePart_le ?_
  rw [toldTime_eq]
  have hfraction : |toldFraction t| ≤ 2 := by
    have hk₀ : (0 : ℚ) ≤ (t % 1000000 : Int) := by
      exact_mod_cast Int.emod_nonneg t (by decide)
    have hk₁ : ((t % 1000000 : Int) : ℚ) ≤ 1000000 := by
      exact_mod_cast (Int.emod_lt_of_pos t (by decide)).le
    obtain ⟨hlow, hhigh⟩ := abs_le.1 (toldFraction_near t)
    rw [abs_le]
    constructor <;> linarith
  have hsum := abs_add_le (rounded ((t / 1000000 : Int) : ℚ)) (toldFraction t)
  have hwhole := abs_rounded_le ((t / 1000000 : Int) : ℚ)
  have htold := abs_rounded_le (rounded ((t / 1000000 : Int) : ℚ) + toldFraction t)
  have hsize : |((t / 1000000 : Int) : ℚ)| = (t / 1000000).natAbs := by
    rw [Nat.cast_natAbs, Int.cast_abs]
  push_cast
  linarith

end Archive

end ImageTransfer

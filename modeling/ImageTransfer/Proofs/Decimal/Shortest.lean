import ImageTransfer.Proofs.Decimal.Rounding

/-!
# The shortest digits are read as the number they were taken from

A point of a decimal grid that is taken for a number lies in the number's neighbourhood
(`readsBack_iff`), so it is rounded to the number again. What has to be shown is that a point is found
at all. On the grid of seventeen digits the points are closer together than the neighbourhood is wide,
so one of the two on either side of the number lies in it (`gridPoint?_of_fine`).
-/

namespace ImageTransfer.Binary64

variable {m : Nat} {e g : Int} {q : ℚ}

theorem ten_zpow_pos (g : Int) : (0 : ℚ) < 10 ^ g := zpow_pos (by norm_num) g

/-! ## Grids -/

/-- A binary number as a quotient of whole numbers. -/
theorem binaryQuotient (n : Nat) (e : Int) :
    (((if 0 ≤ e then n * Nat.pow 2 e.toNat else n : Nat)) : ℚ) /
      ((if 0 ≤ e then 1 else Nat.pow 2 (-e).toNat : Nat)) = n * 2 ^ e := by
  split
  · rename_i he
    obtain ⟨k, rfl⟩ := Int.eq_ofNat_of_zero_le he
    simp
  · rename_i he
    obtain ⟨k, rfl⟩ : ∃ k : Nat, e = -k := ⟨(-e).toNat, by omega⟩
    simp [div_eq_mul_inv]

/-- A number over a grid is a quotient of whole numbers. -/
theorem overGrid_spec (n : Nat) (e g : Int) : 0 < (overGrid n e g).2 ∧
    ((overGrid n e g).1 : ℚ) / (overGrid n e g).2 = n * 2 ^ e / 10 ^ g := by
  have hbinary := binaryQuotient n e
  have hpos : 0 < (if 0 ≤ e then 1 else Nat.pow 2 (-e).toNat) := by
    split
    · exact one_pos
    · exact Nat.pow_pos two_pos
  unfold overGrid
  dsimp only
  generalize (if 0 ≤ e then n * Nat.pow 2 e.toNat else n) = num at *
  generalize (if 0 ≤ e then 1 else Nat.pow 2 (-e).toNat) = den at *
  split
  · rename_i hg
    obtain ⟨k, rfl⟩ := Int.eq_ofNat_of_zero_le hg
    refine ⟨Nat.mul_pos hpos (Nat.pow_pos (by decide)), ?_⟩
    rw [← hbinary]
    simp [div_div]
  · rename_i hg
    obtain ⟨k, rfl⟩ : ∃ k : Nat, g = -k := ⟨(-g).toNat, by omega⟩
    refine ⟨hpos, ?_⟩
    rw [← hbinary]
    simp [div_mul_eq_mul_div]

/-- **The test of a grid point is exact**: it passes if the point lies in the interval. -/
theorem readsBack_iff (nb : Neighbourhood) (e g : Int) (k : Nat) :
    readsBack nb e g k = true ↔ nb.Contains e (k * 10 ^ g) := by
  have hten := ten_zpow_pos g
  have hcompare : ∀ n : Nat,
      ((overGrid n (e - 2) g).1 ≤ k * (overGrid n (e - 2) g).2 ↔
        (n : ℚ) * 2 ^ (e - 2) ≤ k * 10 ^ g) ∧
      (k * (overGrid n (e - 2) g).2 ≤ (overGrid n (e - 2) g).1 ↔
        (k : ℚ) * 10 ^ g ≤ n * 2 ^ (e - 2)) := by
    intro n
    obtain ⟨hpos, hquot⟩ := overGrid_spec n (e - 2) g
    have hpos' : (0 : ℚ) < (overGrid n (e - 2) g).2 := by exact_mod_cast hpos
    constructor
    · rw [← div_le_iff₀ hten, ← hquot, div_le_iff₀ hpos']
      exact_mod_cast Iff.rfl
    · rw [← le_div_iff₀ hten, ← hquot, le_div_iff₀ hpos']
      exact_mod_cast Iff.rfl
  unfold readsBack Neighbourhood.Contains
  dsimp only
  split
  · rw [Bool.and_eq_true, decide_eq_true_eq, decide_eq_true_eq, (hcompare _).1, (hcompare _).2]
  · rw [Bool.and_eq_true, decide_eq_true_eq, decide_eq_true_eq, ← not_le, ← not_le, (hcompare _).1,
      (hcompare _).2, not_le, not_le]

theorem contains_of_lt {nb : Neighbourhood} (hlow : nb.low * 2 ^ (e - 2) < q)
    (hhigh : q < nb.high * 2 ^ (e - 2)) : nb.Contains e q := by
  unfold Neighbourhood.Contains
  split
  · exact ⟨hlow.le, hhigh.le⟩
  · exact ⟨hlow, hhigh⟩

/-! ## Finding a point -/

/-- A point that is taken is not zero and lies in the neighbourhood. -/
theorem gridPoint?_sound {k : Nat} (h : gridPoint? m e g = some k) :
    0 < k ∧ (neighbourhood m e).Contains e (k * 10 ^ g) := by
  rw [← readsBack_iff]
  unfold gridPoint? at h
  dsimp only at h
  generalize (overGrid m e g).1 / (overGrid m e g).2 = below at h
  split at h
  · rename_i hbelow habove
    rw [Bool.and_eq_true, decide_eq_true_eq] at hbelow
    -- both points pass, and whichever is preferred is one of them
    have hboth : k = below ∨ k = below + 1 := by
      cases h
      repeat' split
      all_goals simp
    rcases hboth with rfl | rfl
    · exact ⟨hbelow.2, hbelow.1⟩
    · exact ⟨Nat.succ_pos _, habove⟩
  · rename_i hbelow habove
    rw [Bool.and_eq_true, decide_eq_true_eq] at hbelow
    cases h
    exact ⟨hbelow.2, hbelow.1⟩
  · rename_i hbelow habove
    cases h
    exact ⟨Nat.succ_pos _, habove⟩
  · cases h

/-- A quotient lies between its whole part and the next whole number. -/
theorem cast_div_bounds (num : Nat) {den : Nat} (hden : 0 < den) :
    ((num / den : Nat) : ℚ) ≤ num / den ∧ (num : ℚ) / den < (num / den : Nat) + 1 := by
  have hd : (0 : ℚ) < den := by exact_mod_cast hden
  constructor
  · rw [le_div_iff₀ hd]
    exact_mod_cast Nat.div_mul_le_self num den
  · rw [div_lt_iff₀ hd]
    exact_mod_cast (Nat.div_lt_iff_lt_mul hden).1 (Nat.lt_succ_self (num / den))

/-- A number lies between the two points of a grid that are tried for it. -/
theorem overGrid_floor (m : Nat) (e g : Int) :
    (((overGrid m e g).1 / (overGrid m e g).2 : Nat) : ℚ) * 10 ^ g ≤ m * 2 ^ e ∧
      (m : ℚ) * 2 ^ e < (((overGrid m e g).1 / (overGrid m e g).2 + 1 : Nat) : ℚ) * 10 ^ g := by
  obtain ⟨hpos, hquot⟩ := overGrid_spec m e g
  have hten := ten_zpow_pos g
  obtain ⟨hfloor, hceil⟩ := cast_div_bounds (overGrid m e g).1 hpos
  rw [hquot] at hfloor hceil
  constructor
  · rwa [← le_div_iff₀ hten]
  · rw [← div_lt_iff₀ hten]
    push_cast
    exact hceil

/-- A neighbourhood is wider than the part of its number that seventeen digits leave open. -/
theorem Fitting.spacing_lt (h : Fitting m e) (hm : 0 < m) (hg : (10 : ℚ) ^ (g + 16) ≤ m * 2 ^ e) :
    (10 : ℚ) ^ g < ((neighbourhood m e).high - (neighbourhood m e).low) * 2 ^ (e - 2) := by
  have hpos := two_zpow_pos e
  have hmax : (m : ℚ) + 1 ≤ 2 ^ 53 := by exact_mod_cast h.mantissa
  have hspacing : (10 : ℚ) ^ g * 10 ^ 16 ≤ m * 2 ^ e := by
    rw [zpow_add₀ (by norm_num)] at hg
    exact_mod_cast hg
  rw [cast_high, cast_low hm, zpow_quarter]
  split
  · rename_i hpower
    have hmcast : (m : ℚ) = 2 ^ 52 := by rw [hpower.1]; norm_num
    rw [hmcast] at hspacing ⊢
    linarith
  · have hle : (m : ℚ) * 2 ^ e ≤ (2 ^ 53 - 1) * 2 ^ e :=
      mul_le_mul_of_nonneg_right (by linarith) hpos.le
    linarith

/-- The lower bound of a neighbourhood is below its number, and the upper one above it. -/
theorem bounds_around (hm : 0 < m) (e : Int) :
    (neighbourhood m e).low * (2 : ℚ) ^ (e - 2) < m * 2 ^ e ∧
      m * 2 ^ e < (neighbourhood m e).high * (2 : ℚ) ^ (e - 2) := by
  have hpos := two_zpow_pos e
  rw [cast_high, cast_low hm, zpow_quarter]
  refine ⟨?_, by linarith⟩
  split <;> linarith

/-- **A grid of seventeen digits has a point in the neighbourhood.** -/
theorem gridPoint?_of_fine (h : Fitting m e) (hm : 0 < m)
    (hg : (10 : ℚ) ^ (g + 16) ≤ m * 2 ^ e) : ∃ k, gridPoint? m e g = some k := by
  obtain ⟨hbelow, habove⟩ := overGrid_floor m e g
  obtain ⟨hlow, hhigh⟩ := bounds_around hm e
  have hspacing := h.spacing_lt hm hg
  unfold gridPoint?
  dsimp only
  generalize (overGrid m e g).1 / (overGrid m e g).2 = below at *
  have hten := ten_zpow_pos g
  -- with seventeen digits the point below is not zero
  have hpos : 0 < below := by
    by_contra hzero
    have hnone : ((below + 1 : Nat) : ℚ) = 1 := by rw [Nat.eq_zero_of_not_pos hzero]; norm_num
    have hle : (10 : ℚ) ^ g ≤ 10 ^ (g + 16) := zpow_le_zpow_right₀ (by norm_num) (by omega)
    rw [hnone] at habove
    linarith
  split
  · exact ⟨_, rfl⟩
  · exact ⟨_, rfl⟩
  · exact ⟨_, rfl⟩
  · -- if both points were outside, the neighbourhood would fit between them
    rename_i hout hout'
    rw [Bool.and_eq_false_iff, decide_eq_false_iff_not] at hout
    have hnot : ¬ (neighbourhood m e).Contains e (below * 10 ^ g) := fun hin => by
      rcases hout with hout | hout
      · exact Bool.false_ne_true (hout.symm.trans ((readsBack_iff ..).2 hin))
      · exact hout hpos
    have hnot' : ¬ (neighbourhood m e).Contains e ((below + 1 : Nat) * 10 ^ g) := fun hin =>
      Bool.false_ne_true (hout'.symm.trans ((readsBack_iff ..).2 hin))
    have hfar : (below : ℚ) * 10 ^ g ≤ (neighbourhood m e).low * 2 ^ (e - 2) :=
      not_lt.1 fun hlt => hnot (contains_of_lt hlt (hbelow.trans_lt hhigh))
    have hfar' : ((neighbourhood m e).high : ℚ) * 2 ^ (e - 2) ≤ (below + 1 : Nat) * 10 ^ g :=
      not_lt.1 fun hlt => hnot' (contains_of_lt (hlow.trans habove) hlt)
    push_cast at hfar'
    linarith

/-! ## The shortest digits -/

theorem cast_bounds {n : Nat} (hn : 0 < n) :
    (10 : ℚ) ^ ((digitCount n : Int) - 1) ≤ n ∧ (n : ℚ) < 10 ^ (digitCount n : Int) := by
  simpa using decimal_bounds hn 0

/-- A quotient of at least one has as many digits before the point as its whole part. -/
theorem quotient_magnitude {num den : Nat} (hden : 0 < den) (h : den ≤ num) :
    (10 : ℚ) ^ ((digitCount (num / den) : Int) - 1) ≤ num / den ∧
      (num : ℚ) / den < 10 ^ (digitCount (num / den) : Int) := by
  obtain ⟨hfloor, hceil⟩ := cast_div_bounds num hden
  obtain ⟨hlow, -⟩ := cast_bounds (Nat.div_pos h hden)
  have hhigh : ((num / den : Nat) : ℚ) + 1 ≤ 10 ^ (digitCount (num / den) : Int) := by
    rw [zpow_natCast]
    exact_mod_cast Decimal.lt_pow_digitCount (num / den)
  exact ⟨hlow.trans hfloor, hceil.trans_le hhigh⟩

/-- **The order of magnitude of a number** is told by whole numbers alone. -/
theorem decimalMagnitude_spec (hm : 0 < m) (e : Int) :
    (10 : ℚ) ^ (decimalMagnitude m e - 1) ≤ m * 2 ^ e ∧
      (m : ℚ) * 2 ^ e < 10 ^ decimalMagnitude m e := by
  unfold decimalMagnitude
  dsimp only
  split
  · rename_i he
    obtain ⟨k, rfl⟩ := Int.eq_ofNat_of_zero_le he
    simpa using cast_bounds (n := m * 2 ^ k) (Nat.mul_pos hm (Nat.pow_pos two_pos))
  · rename_i he
    obtain ⟨k, rfl⟩ : ∃ k : Nat, e = -k := ⟨(-e).toNat, by omega⟩
    have hvalue : (m : ℚ) * 2 ^ (-(k : Int)) = m / (2 ^ k : Nat) := by
      rw [zpow_neg, zpow_natCast, div_eq_mul_inv]
      push_cast
      rfl
    rw [hvalue, neg_neg, Int.toNat_natCast, Nat.pow_eq]
    have hden : 0 < 2 ^ k := Nat.pow_pos two_pos
    generalize 2 ^ k = den at hden
    have hd : (0 : ℚ) < den := by exact_mod_cast hden
    have hmq : (0 : ℚ) < m := by exact_mod_cast hm
    split
    · rename_i hle
      exact quotient_magnitude hden hle
    · -- below one it is the inverse that has a whole part
      rename_i hlt
      obtain ⟨hlow, hhigh⟩ := quotient_magnitude hm (Nat.le_of_not_le hlt)
      have hcount := Decimal.digitCount_pos (den / m)
      generalize digitCount (den / m) = places at *
      have hmost : (m : ℚ) / den ≤ 10 ^ (1 - (places : Int)) := by
        rw [← inv_div, ← neg_sub, zpow_neg]
        exact inv_anti₀ (ten_zpow_pos _) hlow
      have hleast : (10 : ℚ) ^ (-(places : Int)) ≤ m / den := by
        rw [← inv_div, zpow_neg]
        exact inv_anti₀ (by positivity) hhigh.le
      have hpower : den ≤ m * Nat.pow 10 (places - 1) ↔
          (10 : ℚ) ^ (1 - (places : Int)) ≤ m / den := by
        have hexp : (1 : Int) - places = -((places - 1 : Nat) : Int) := by omega
        rw [hexp, zpow_neg, zpow_natCast, le_div_iff₀ hd, inv_mul_le_iff₀ (by positivity), mul_comm]
        exact_mod_cast Iff.rfl
      split
      · rename_i h
        refine ⟨?_, hmost.trans_lt (zpow_lt_zpow_right₀ (by norm_num) (by omega))⟩
        rw [show (2 : Int) - places - 1 = 1 - places by ring]
        exact hpower.1 h
      · rename_i h
        refine ⟨?_, not_le.1 (mt hpower.2 h)⟩
        rw [show (1 : Int) - places - 1 = -places by ring]
        exact hleast

/-- **Digits are found, and they lie in the neighbourhood of the number.** -/
theorem shortestDigits_spec (h : Fitting m e) (hm : 0 < m) :
    0 < (shortestDigits m e).1 ∧
      (neighbourhood m e).Contains e ((shortestDigits m e).1 * 10 ^ (shortestDigits m e).2) := by
  unfold shortestDigits
  dsimp only
  generalize hhit : ((List.range 17).findSome? fun (i : Nat) =>
    (gridPoint? m e (decimalMagnitude m e - ((i + 1 : Nat) : Int))).map fun k =>
      (k, decimalMagnitude m e - ((i + 1 : Nat) : Int))) = hit
  cases hit with
  | none =>
      -- the last of the grids has been tried
      have hlast := List.findSome?_eq_none_iff.1 hhit 16 (by decide)
      have hfine : (10 : ℚ) ^ (decimalMagnitude m e - ((16 + 1 : Nat) : Int) + 16) ≤ m * 2 ^ e := by
        have hsame : decimalMagnitude m e - ((16 + 1 : Nat) : Int) + 16 =
            decimalMagnitude m e - 1 := by omega
        rw [hsame]
        exact (decimalMagnitude_spec hm e).1
      obtain ⟨k, hk⟩ := gridPoint?_of_fine h hm hfine
      rw [hk] at hlast
      cases hlast
  | some found =>
      obtain ⟨i, -, hi⟩ := List.exists_of_findSome?_eq_some hhit
      obtain ⟨k, hk, rfl⟩ := Option.map_eq_some_iff.1 hi
      exact gridPoint?_sound hk

end ImageTransfer.Binary64

-- SUMMARY: Rounding of fractions to binary64 places: it depends on the quotient alone, and places are their own nearest ones.
import Mathlib.Algebra.Order.Field.Power
import Mathlib.Algebra.Order.Field.Rat
import Mathlib.Data.Int.Log
import Mathlib.Data.Rat.Floor
import Mathlib.Tactic.FieldSimp
import Mathlib.Tactic.Positivity
import Telemetry.Number.Binary64

/-!
# Rounding to places

The exponent of the nearest place comes from the binary logarithm of a fraction, which is a property
of the rational number that the fraction stands for. What is rounded is then scaled by the same
factor in the numerator and the denominator, so equal fractions have the same nearest place.
-/

namespace Telemetry

/-! ## Rounding quotients -/

/-- A fraction may be expanded before it is rounded. -/
theorem roundHalfEven_mul_left {k : Nat} (hk : 0 < k) (num den : Nat) :
    roundHalfEven (k * num) (k * den) = roundHalfEven num den := by
  have hlow : 2 * (k * (num % den)) < k * den ↔ 2 * (num % den) < den := by
    rw [Nat.mul_left_comm]
    exact Nat.mul_lt_mul_left hk
  have hhigh : k * den < 2 * (k * (num % den)) ↔ den < 2 * (num % den) := by
    rw [Nat.mul_left_comm]
    exact Nat.mul_lt_mul_left hk
  unfold roundHalfEven
  rw [Nat.mul_div_mul_left num den hk, Nat.mul_mod_mul_left]
  simp only [hlow, hhigh]

/-- A whole quotient is not changed. -/
theorem roundHalfEven_mul_self {den : Nat} (hden : 0 < den) (m : Nat) :
    roundHalfEven (m * den) den = m := by
  unfold roundHalfEven
  rw [Nat.mul_div_cancel m hden, Nat.mul_mod_left]
  exact if_pos hden

/-! ## Binary logarithms of fractions -/

theorem two_pow_le_ratio_iff (num : Nat) {den : Nat} (hden : den ≠ 0) (e : Int) :
    (if 0 ≤ e then den * 2 ^ e.toNat ≤ num else den ≤ num * 2 ^ (-e).toNat) ↔
      (2 : ℚ) ^ e ≤ (num : ℚ) / den := by
  have hpos : (0 : ℚ) < den := by positivity
  rw [le_div_iff₀ hpos]
  split
  · rename_i h
    obtain ⟨k, rfl⟩ := Int.eq_ofNat_of_zero_le h
    rw [Int.toNat_natCast, zpow_natCast, mul_comm]
    exact_mod_cast Iff.rfl
  · rename_i h
    obtain ⟨k, hk⟩ := Int.eq_ofNat_of_zero_le (by omega : 0 ≤ -e)
    obtain rfl : e = -(k : Int) := by omega
    rw [Int.neg_neg, Int.toNat_natCast, zpow_neg, zpow_natCast, inv_mul_le_iff₀ (by positivity),
      mul_comm]
    exact_mod_cast Iff.rfl

/-- The computed exponent is the binary logarithm of the quotient. -/
theorem floorLog2_eq_log {num den : Nat} (hnum : num ≠ 0) (hden : den ≠ 0) :
    floorLog2 num den = Int.log 2 ((num : ℚ) / den) := by
  have hdenPos : (0 : ℚ) < den := by positivity
  have hpos : (0 : ℚ) < (num : ℚ) / den := by positivity
  have hnumLow : (2 : ℚ) ^ (num.log2 : Int) ≤ num := by
    exact_mod_cast Nat.log2_self_le hnum
  have hnumHigh : (num : ℚ) < 2 ^ ((num.log2 : Int) + 1) := by
    exact_mod_cast Nat.lt_log2_self (n := num)
  have hdenLow : (2 : ℚ) ^ (den.log2 : Int) ≤ den := by
    exact_mod_cast Nat.log2_self_le hden
  have hdenHigh : (den : ℚ) < 2 ^ ((den.log2 : Int) + 1) := by
    exact_mod_cast Nat.lt_log2_self (n := den)
  -- The difference of the logarithms is the one sought or the next above it.
  have hlow : (num.log2 : Int) - den.log2 - 1 ≤ Int.log 2 ((num : ℚ) / den) := by
    refine (Int.zpow_le_iff_le_log (by decide) hpos).mp ?_
    rw [le_div_iff₀ hdenPos]
    calc (2 : ℚ) ^ ((num.log2 : Int) - den.log2 - 1) * den
        ≤ 2 ^ ((num.log2 : Int) - den.log2 - 1) * 2 ^ ((den.log2 : Int) + 1) := by gcongr
      _ = 2 ^ (num.log2 : Int) := by rw [← zpow_add₀ (by norm_num)]; congr 1; omega
      _ ≤ num := hnumLow
  have hhigh : Int.log 2 ((num : ℚ) / den) < (num.log2 : Int) - den.log2 + 1 := by
    refine (Int.lt_zpow_iff_log_lt (by decide) hpos).mp ?_
    rw [div_lt_iff₀ hdenPos]
    calc (num : ℚ) < 2 ^ ((num.log2 : Int) + 1) := hnumHigh
      _ = 2 ^ ((num.log2 : Int) - den.log2 + 1) * 2 ^ (den.log2 : Int) := by
        rw [← zpow_add₀ (by norm_num)]; congr 1; omega
      _ ≤ 2 ^ ((num.log2 : Int) - den.log2 + 1) * den := by gcongr
  have hreached := (two_pow_le_ratio_iff num hden ((num.log2 : Int) - den.log2)).trans
    (Int.zpow_le_iff_le_log (by decide) hpos)
  unfold floorLog2
  by_cases hsign : 0 ≤ (num.log2 : Int) - den.log2
  · rw [if_pos hsign] at hreached
    simp only [if_pos hsign, decide_eq_true_eq, hreached]
    split <;> omega
  · rw [if_neg hsign] at hreached
    simp only [if_neg hsign, decide_eq_true_eq, hreached]
    split <;> omega

/-- Equal fractions have the same binary logarithm. -/
theorem floorLog2_mul_left {k num den : Nat} (hk : 0 < k) (hnum : num ≠ 0) (hden : den ≠ 0) :
    floorLog2 (k * num) (k * den) = floorLog2 num den := by
  have hkq : (k : ℚ) ≠ 0 := by exact_mod_cast Nat.ne_of_gt hk
  rw [floorLog2_eq_log (Nat.mul_ne_zero (Nat.ne_of_gt hk) hnum)
    (Nat.mul_ne_zero (Nat.ne_of_gt hk) hden), floorLog2_eq_log hnum hden, Nat.cast_mul,
    Nat.cast_mul, mul_div_mul_left _ _ hkq]

namespace Binary64

/-! ## The nearest place -/

/-- A fraction may be expanded before its nearest place is found. -/
theorem nearestPlace_mul_left {k num den : Nat} (hk : 0 < k) (hden : den ≠ 0) :
    nearestPlace (k * num) (k * den) = nearestPlace num den := by
  unfold nearestPlace
  rcases Nat.eq_zero_or_pos num with rfl | hnum
  · rw [Nat.mul_zero, if_pos rfl, if_pos rfl]
  · have hnum' : num ≠ 0 := Nat.ne_of_gt hnum
    rw [if_neg (Nat.mul_ne_zero (Nat.ne_of_gt hk) hnum'), if_neg hnum',
      floorLog2_mul_left hk hnum' hden]
    simp only [Nat.mul_assoc, roundHalfEven_mul_left hk]

/-- Fractions of the same number have the same nearest place. -/
theorem nearestPlace_congr {num den num' den' : Nat} (hden : den ≠ 0) (hden' : den' ≠ 0)
    (h : (num : ℚ) / den = num' / den') : nearestPlace num den = nearestPlace num' den' := by
  have hcross : num * den' = num' * den := by
    rw [div_eq_div_iff (by exact_mod_cast hden) (by exact_mod_cast hden')] at h
    exact_mod_cast h
  rw [← nearestPlace_mul_left (Nat.pos_of_ne_zero hden') hden,
    ← nearestPlace_mul_left (Nat.pos_of_ne_zero hden) hden', Nat.mul_comm den' num, hcross,
    Nat.mul_comm num' den, Nat.mul_comm den' den]

/-! ## Places -/

theorem binade_pos : 0 < binade := by decide

theorem mantissa_lt (place : Nat) : mantissa place < 2 * binade := by
  unfold mantissa
  have := Nat.mod_lt place binade_pos
  split <;> omega

theorem exponent_ge (place : Nat) : -1074 ≤ exponent place := by
  unfold exponent
  split
  · exact Int.le_refl _
  · have : 1 ≤ place / binade := (Nat.one_le_div_iff binade_pos).mpr (by omega)
    omega

/-- Above the lowest exponent, mantissas have all their digits. -/
theorem exponent_eq_or_binade_le (place : Nat) :
    exponent place = -1074 ∨ binade ≤ mantissa place := by
  unfold exponent mantissa
  split
  · exact .inl rfl
  · exact .inr (Nat.le_add_right _ _)

theorem mantissa_ne_zero {place : Nat} (h : place ≠ 0) : mantissa place ≠ 0 := by
  unfold mantissa
  have := binade_pos
  split <;> omega

/-- A place is recovered from its exponent and its mantissa. -/
theorem place_eq (place : Nat) : (exponent place + 1074).toNat * binade + mantissa place = place := by
  unfold exponent mantissa
  split
  · simp
  · rename_i h
    obtain ⟨k, hk⟩ : ∃ k, place / binade = k + 1 :=
      Nat.exists_eq_succ_of_ne_zero
        (Nat.ne_of_gt ((Nat.one_le_div_iff binade_pos).mpr (by omega)))
    have hplace := Nat.div_add_mod place binade
    have hexponent : (((place / binade : Nat) : Int) - 1075 + 1074).toNat = k := by omega
    rw [hk, Nat.mul_succ, Nat.mul_comm] at hplace
    rw [hexponent]
    omega

theorem fraction_of_nonneg {place : Nat} (h : 0 ≤ exponent place) :
    fraction place = (mantissa place * 2 ^ (exponent place).toNat, 1) :=
  if_pos h

theorem fraction_of_neg {place : Nat} (h : ¬ 0 ≤ exponent place) :
    fraction place = (mantissa place, 2 ^ (-exponent place).toNat) :=
  if_neg h

theorem fraction_den_ne_zero (place : Nat) : (fraction place).2 ≠ 0 := by
  by_cases h : 0 ≤ exponent place
  · rw [fraction_of_nonneg h]
    exact Nat.one_ne_zero
  · rw [fraction_of_neg h]
    exact Nat.ne_of_gt (Nat.pow_pos (by decide))

theorem fraction_num_ne_zero {place : Nat} (hplace : place ≠ 0) : (fraction place).1 ≠ 0 := by
  by_cases h : 0 ≤ exponent place
  · rw [fraction_of_nonneg h]
    exact Nat.mul_ne_zero (mantissa_ne_zero hplace) (Nat.ne_of_gt (Nat.pow_pos (by decide)))
  · rw [fraction_of_neg h]
    exact mantissa_ne_zero hplace

theorem fraction_ratio (place : Nat) :
    (((fraction place).1 : ℚ) / (fraction place).2) = mantissa place * 2 ^ exponent place := by
  by_cases h : 0 ≤ exponent place
  · obtain ⟨k, hk⟩ := Int.eq_ofNat_of_zero_le h
    rw [fraction_of_nonneg h, hk, Int.toNat_natCast, zpow_natCast]
    push_cast
    rw [div_one]
  · obtain ⟨k, hk⟩ := Int.eq_ofNat_of_zero_le (by omega : 0 ≤ -exponent place)
    have hk' : exponent place = -(k : Int) := by omega
    rw [fraction_of_neg h, hk, hk', Int.toNat_natCast, zpow_neg, zpow_natCast, div_eq_mul_inv]
    push_cast
    rfl

/-- The rounding exponent of a magnitude is its own one. -/
theorem roundingExponent_fraction {place : Nat} (h : place ≠ 0) :
    max (floorLog2 (fraction place).1 (fraction place).2 - 52) (-1074) = exponent place := by
  have hm : (0 : ℚ) < mantissa place := by
    exact_mod_cast Nat.pos_of_ne_zero (mantissa_ne_zero h)
  have hpos : (0 : ℚ) < mantissa place * 2 ^ exponent place := by positivity
  rw [floorLog2_eq_log (fraction_num_ne_zero h) (fraction_den_ne_zero place), fraction_ratio]
  have hhigh : Int.log 2 ((mantissa place : ℚ) * 2 ^ exponent place) < 53 + exponent place := by
    refine (Int.lt_zpow_iff_log_lt (by decide) hpos).mp ?_
    have hlt : (mantissa place : ℚ) < 2 ^ (53 : Int) := by
      exact_mod_cast (mantissa_lt place).trans_eq rfl
    calc (mantissa place : ℚ) * 2 ^ exponent place
        < 2 ^ (53 : Int) * 2 ^ exponent place := by gcongr
      _ = _ := by rw [← zpow_add₀ (by norm_num)]; rfl
  have hlow : binade ≤ mantissa place →
      52 + exponent place ≤ Int.log 2 ((mantissa place : ℚ) * 2 ^ exponent place) := by
    intro hle
    refine (Int.zpow_le_iff_le_log (by decide) hpos).mp ?_
    have hle : (2 : ℚ) ^ (52 : Int) ≤ mantissa place := by exact_mod_cast hle
    calc ((2 : Nat) : ℚ) ^ (52 + exponent place)
        = 2 ^ (52 : Int) * 2 ^ exponent place := by rw [← zpow_add₀ (by norm_num)]; rfl
      _ ≤ mantissa place * 2 ^ exponent place := by gcongr
  have hge := exponent_ge place
  rcases exponent_eq_or_binade_le place with hlowest | hfull
  · omega
  · have := hlow hfull
    omega

/-- At its own exponent a magnitude is the whole number of its mantissa. -/
theorem roundedMantissa_fraction (place : Nat) :
    (if 0 ≤ exponent place then
      roundHalfEven (fraction place).1 ((fraction place).2 * 2 ^ (exponent place).toNat)
    else roundHalfEven ((fraction place).1 * 2 ^ (-exponent place).toNat) (fraction place).2) =
      mantissa place := by
  by_cases h : 0 ≤ exponent place
  · rw [if_pos h, fraction_of_nonneg h, Nat.one_mul]
    exact roundHalfEven_mul_self (Nat.pow_pos (by decide)) _
  · rw [if_neg h, fraction_of_neg h]
    exact roundHalfEven_mul_self (Nat.pow_pos (by decide)) _

/-- Every place is the nearest one to its own magnitude. -/
theorem nearestPlace_fraction (place : Nat) :
    nearestPlace (fraction place).1 (fraction place).2 = place := by
  rcases Nat.eq_zero_or_pos place with rfl | hpos
  · rfl
  · have hplace : place ≠ 0 := Nat.ne_of_gt hpos
    unfold nearestPlace
    rw [if_neg (fraction_num_ne_zero hplace)]
    simp only [roundingExponent_fraction hplace, roundedMantissa_fraction]
    exact place_eq place

end Binary64

end Telemetry

-- SUMMARY: Decimals and places: shifting digits keeps the nearest place, and the shortest decimal of a place reads back as it.
import Mathlib.Tactic.Ring
import Telemetry.Number.Decimal
import Telemetry.Proofs.Number.Digits
import Telemetry.Proofs.Number.Rounding

/-!
# Decimals and places

Zeros may move between the digits and the exponent of a decimal without changing its nearest place.
The decimals on the grid are tested before they are taken, and the full expansion behind them is exact,
so whatever is taken as the shortest decimal of a place has this place as its nearest one.
-/

namespace Telemetry

namespace Decimal

/-! ## Shifting -/

theorem fraction_of_nonneg {d : Decimal} (h : 0 ≤ d.exponent) :
    d.fraction = (d.digits * 10 ^ d.exponent.toNat, 1) :=
  if_pos h

theorem fraction_of_neg {d : Decimal} (h : ¬ 0 ≤ d.exponent) :
    d.fraction = (d.digits, 10 ^ (-d.exponent).toNat) :=
  if_neg h

theorem fraction_den_ne_zero (d : Decimal) : d.fraction.2 ≠ 0 := by
  by_cases h : 0 ≤ d.exponent
  · rw [fraction_of_nonneg h]
    exact Nat.one_ne_zero
  · rw [fraction_of_neg h]
    exact Nat.ne_of_gt (Nat.pow_pos (by decide))

theorem fraction_ratio (d : Decimal) :
    (d.fraction.1 : ℚ) / d.fraction.2 = d.digits * 10 ^ d.exponent := by
  by_cases h : 0 ≤ d.exponent
  · obtain ⟨k, hk⟩ := Int.eq_ofNat_of_zero_le h
    rw [fraction_of_nonneg h, hk, Int.toNat_natCast, zpow_natCast]
    push_cast
    rw [div_one]
  · obtain ⟨k, hk⟩ := Int.eq_ofNat_of_zero_le (by omega : 0 ≤ -d.exponent)
    have hk' : d.exponent = -(k : Int) := by omega
    rw [fraction_of_neg h, hk, hk', Int.toNat_natCast, zpow_neg, zpow_natCast, div_eq_mul_inv]
    push_cast
    rfl

/-- A zero at the end of the digits may move into the exponent. -/
theorem nearestPlace_shift (n : Nat) (e : Int) :
    nearestPlace ⟨10 * n, e⟩ = nearestPlace ⟨n, e + 1⟩ := by
  rcases Nat.eq_zero_or_pos n with rfl | hpos
  · rfl
  · have hn : n ≠ 0 := Nat.ne_of_gt hpos
    have hplace : Binary64.nearestPlace (fraction ⟨10 * n, e⟩).1 (fraction ⟨10 * n, e⟩).2 =
        Binary64.nearestPlace (fraction ⟨n, e + 1⟩).1 (fraction ⟨n, e + 1⟩).2 := by
      refine Binary64.nearestPlace_congr (fraction_den_ne_zero _) (fraction_den_ne_zero _) ?_
      rw [fraction_ratio, fraction_ratio, zpow_add_one₀ (by norm_num), Nat.cast_mul]
      ring
    have htop : ((decimalLength n + 1 : Nat) : Int) + e = decimalLength n + (e + 1) := by omega
    unfold nearestPlace
    rw [hplace, decimalLength_mul_ten hn, htop, if_neg hn,
      if_neg (show ¬ 10 * n = 0 by omega)]

theorem nearestPlace_mul_pow (n k : Nat) (e : Int) :
    nearestPlace ⟨n * 10 ^ k, e⟩ = nearestPlace ⟨n, e + k⟩ := by
  induction k generalizing e with
  | zero => rw [Nat.pow_zero, Nat.mul_one, Int.natCast_zero, Int.add_zero]
  | succ k ih =>
    have hdigits : n * 10 ^ (k + 1) = 10 * (n * 10 ^ k) := by
      rw [Nat.pow_succ, ← Nat.mul_assoc, Nat.mul_comm]
    have hexponent : e + 1 + (k : Int) = e + (k + 1 : Nat) := by omega
    rw [hdigits, nearestPlace_shift, ih, hexponent]

theorem nearestPlace_stripZeros (fuel : Nat) (d : Decimal) :
    (stripZeros fuel d).nearestPlace = d.nearestPlace := by
  induction fuel generalizing d with
  | zero => rfl
  | succ fuel ih =>
    unfold stripZeros
    split
    · rename_i h
      rw [ih, ← nearestPlace_shift, Nat.mul_div_cancel' (Nat.dvd_of_mod_eq_zero h)]
    · rfl

/-- Leaving out zeros at the end keeps the nearest place. -/
theorem nearestPlace_normalize (d : Decimal) : d.normalize.nearestPlace = d.nearestPlace := by
  unfold normalize
  split
  · rename_i h
    unfold nearestPlace
    rw [if_pos rfl, if_pos h]
  · exact nearestPlace_stripZeros _ d

/-- Within the range of binary64, the nearest place is the one of the fraction. -/
theorem nearestPlace_eq_of_range {d : Decimal} (hdigits : d.digits ≠ 0)
    (hhigh : (decimalLength d.digits : Int) + d.exponent ≤ 310)
    (hlow : -325 ≤ (decimalLength d.digits : Int) + d.exponent) :
    d.nearestPlace = Binary64.nearestPlace d.fraction.1 d.fraction.2 := by
  unfold nearestPlace
  rw [if_neg hdigits, if_neg (Int.not_lt.mpr hhigh), if_neg (Int.not_lt.mpr hlow)]

end Decimal

namespace Binary64

/-! ## Shortest decimals -/

theorem exponent_le {place : Nat} (h : place < infinityPlace) : exponent place ≤ 971 := by
  unfold exponent
  split
  · decide
  · have : place / binade < 2047 := Nat.div_lt_of_lt_mul (by rwa [Nat.mul_comm])
    omega

theorem exactDecimal_of_nonneg {place : Nat} (h : 0 ≤ exponent place) :
    exactDecimal place = ⟨mantissa place * 2 ^ (exponent place).toNat, 0⟩ :=
  if_pos h

theorem exactDecimal_of_neg {place : Nat} (h : ¬ 0 ≤ exponent place) :
    exactDecimal place = ⟨mantissa place * 5 ^ (-exponent place).toNat, exponent place⟩ :=
  if_neg h

theorem exactDecimal_ratio (place : Nat) :
    ((exactDecimal place).digits : ℚ) * 10 ^ (exactDecimal place).exponent =
      mantissa place * 2 ^ exponent place := by
  by_cases h : 0 ≤ exponent place
  · obtain ⟨k, hk⟩ := Int.eq_ofNat_of_zero_le h
    rw [exactDecimal_of_nonneg h, hk, Int.toNat_natCast, zpow_natCast, zpow_zero, mul_one]
    push_cast
    rfl
  · obtain ⟨k, hk⟩ := Int.eq_ofNat_of_zero_le (by omega : 0 ≤ -exponent place)
    have hk' : exponent place = -(k : Int) := by omega
    have hten : (10 : ℚ) ^ k = 5 ^ k * 2 ^ k := by rw [← mul_pow]; norm_num
    rw [exactDecimal_of_neg h, hk, hk', Int.toNat_natCast, zpow_neg, zpow_neg, zpow_natCast,
      zpow_natCast, hten]
    push_cast
    field_simp

theorem exactDecimal_digits_ne_zero {place : Nat} (hplace : place ≠ 0) :
    (exactDecimal place).digits ≠ 0 := by
  by_cases h : 0 ≤ exponent place
  · rw [exactDecimal_of_nonneg h]
    exact Nat.mul_ne_zero (mantissa_ne_zero hplace) (Nat.ne_of_gt (Nat.pow_pos (by decide)))
  · rw [exactDecimal_of_neg h]
    exact Nat.mul_ne_zero (mantissa_ne_zero hplace) (Nat.ne_of_gt (Nat.pow_pos (by decide)))

theorem decimalLength_exactDecimal_le {place : Nat} (h : place < infinityPlace) :
    (decimalLength (exactDecimal place).digits : Int) + (exactDecimal place).exponent ≤ 310 := by
  have hlt := mantissa_lt place
  have hle := exponent_le h
  by_cases hsign : 0 ≤ exponent place
  · obtain ⟨k, hk⟩ := Int.eq_ofNat_of_zero_le hsign
    have hbound : mantissa place * 2 ^ k < 10 ^ 310 := by
      calc mantissa place * 2 ^ k < 2 ^ 53 * 2 ^ k :=
            Nat.mul_lt_mul_of_pos_right hlt (Nat.pow_pos (by decide))
        _ ≤ 2 ^ 53 * 2 ^ 971 :=
            Nat.mul_le_mul_left _ (Nat.pow_le_pow_right (by decide) (by omega))
        _ ≤ 10 ^ 310 := by decide +kernel
    have hlength := (decimalLength_le_iff (by decide)).mpr hbound
    rw [exactDecimal_of_nonneg hsign, hk, Int.toNat_natCast]
    dsimp only
    omega
  · obtain ⟨k, hk⟩ := Int.eq_ofNat_of_zero_le (by omega : 0 ≤ -exponent place)
    have hbound : mantissa place * 5 ^ k < 10 ^ (310 + k) := by
      calc mantissa place * 5 ^ k < 2 ^ 53 * 5 ^ k :=
            Nat.mul_lt_mul_of_pos_right hlt (Nat.pow_pos (by decide))
        _ ≤ 10 ^ 310 * 10 ^ k :=
            Nat.mul_le_mul (by decide +kernel) (Nat.pow_le_pow_left (by decide) k)
        _ = 10 ^ (310 + k) := by rw [Nat.pow_add]
    have hlength := (decimalLength_le_iff (by omega)).mpr hbound
    rw [exactDecimal_of_neg hsign, hk, Int.toNat_natCast]
    dsimp only
    omega

theorem le_decimalLength_exactDecimal {place : Nat} (hplace : place ≠ 0) :
    -325 ≤ (decimalLength (exactDecimal place).digits : Int) + (exactDecimal place).exponent := by
  have hge := exponent_ge place
  by_cases hsign : 0 ≤ exponent place
  · rw [exactDecimal_of_nonneg hsign]
    dsimp only
    omega
  · obtain ⟨k, hk⟩ := Int.eq_ofNat_of_zero_le (by omega : 0 ≤ -exponent place)
    rw [exactDecimal_of_neg hsign, hk, Int.toNat_natCast]
    dsimp only
    have hpos := decimalLength_pos (mantissa place * 5 ^ k)
    rcases Nat.lt_or_ge k 327 with hsmall | hlarge
    · omega
    · obtain ⟨j, rfl⟩ : ∃ j, k = 326 + j := ⟨k - 326, by omega⟩
      -- Five has so many factors here that they make up for the missing twos.
      have hfactors : 2 ^ 748 ≤ 5 ^ 326 := by decide +kernel
      have hbound : 10 ^ j ≤ mantissa place * 5 ^ (326 + j) := by
        calc 10 ^ j = 2 ^ j * 5 ^ j := by rw [← Nat.mul_pow]
          _ ≤ 5 ^ 326 * 5 ^ j := Nat.mul_le_mul_right _
              ((Nat.pow_le_pow_right (by decide) (by omega)).trans hfactors)
          _ = 1 * 5 ^ (326 + j) := by rw [← Nat.pow_add, Nat.one_mul]
          _ ≤ mantissa place * 5 ^ (326 + j) :=
              Nat.mul_le_mul_right _ (Nat.pos_of_ne_zero (mantissa_ne_zero hplace))
      have hlength : ¬ decimalLength (mantissa place * 5 ^ (326 + j)) ≤ j := by
        rw [decimalLength_le_iff (by omega)]
        exact Nat.not_lt.mpr hbound
      omega

/-- The full expansion of a finite magnitude reads back as it. -/
theorem nearestPlace_exactDecimal {place : Nat} (hplace : place ≠ 0) (h : place < infinityPlace) :
    (exactDecimal place).nearestPlace = place := by
  rw [Decimal.nearestPlace_eq_of_range (exactDecimal_digits_ne_zero hplace)
    (decimalLength_exactDecimal_le h) (le_decimalLength_exactDecimal hplace)]
  refine Eq.trans ?_ (nearestPlace_fraction place)
  refine nearestPlace_congr (Decimal.fraction_den_ne_zero _) (fraction_den_ne_zero _) ?_
  rw [Decimal.fraction_ratio, exactDecimal_ratio, fraction_ratio]

/-- What is found on a grid reads back as the place that it was sought for. -/
theorem nearestPlace_of_neighbourOnGrid? {place : Nat} {k : Int} {d : Decimal}
    (h : neighbourOnGrid? place k = some d) : d.nearestPlace = place := by
  unfold neighbourOnGrid? at h
  simp only at h
  split at h
  all_goals rename_i hlow hhigh
  · cases h
    split
    · exact beq_iff_eq.mp hlow
    · exact beq_iff_eq.mp hhigh
  · cases h
    exact beq_iff_eq.mp hlow
  · cases h
    exact beq_iff_eq.mp hhigh
  · cases h

/-- The shortest decimal of a finite magnitude reads back as it. -/
theorem nearestPlace_shortestDecimal {place : Nat} (h : place < infinityPlace) :
    (shortestDecimal place).nearestPlace = place := by
  unfold shortestDecimal
  by_cases hplace : place = 0
  · rw [if_pos hplace, hplace]
    rfl
  · rw [if_neg hplace]
    simp only
    rw [Decimal.nearestPlace_normalize]
    cases hfound : (List.range 17).findSome? fun (n : Nat) =>
        neighbourOnGrid? place
          (leadingPosition (fraction place).1 (fraction place).2 - (n + 1 : Nat)) with
    | none => exact nearestPlace_exactDecimal hplace h
    | some d =>
      obtain ⟨n, -, hn⟩ := List.exists_of_findSome?_eq_some hfound
      exact nearestPlace_of_neighbourOnGrid? hn

end Binary64

end Telemetry

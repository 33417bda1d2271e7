-- SUMMARY: 64-bit integers as binary64 numbers: those of up to 53 binary digits come back, and the text of each reads as the number nearest to it.
import Mathlib
import Telemetry.Proofs.Number.Integers
import Telemetry.Proofs.Number.Reals

/-!
# Integers as binary64 numbers

A whole number of up to 53 binary digits is the mantissa of a place after some shift, so it is the
magnitude at this place and is not rounded. Larger integers are rounded in the same way whether they are
converted or read from their text.
-/

namespace Telemetry

namespace Binary64

/-! ## Whole magnitudes -/

/-- A place is made of a number of binades and a mantissa with all its digits. -/
theorem fraction_ratio_of_binade_le (binades : Nat) {m : Nat} (hlow : binade ≤ m)
    (hhigh : m < 2 * binade) :
    ((fraction (binades * binade + m)).1 : ℚ) / (fraction (binades * binade + m)).2 =
      m * 2 ^ ((binades : Int) - 1074) := by
  obtain ⟨rest, rfl⟩ := Nat.exists_eq_add_of_le hlow
  have hrest : rest < binade := by omega
  have hplace : binades * binade + (binade + rest) = rest + (binades + 1) * binade := by
    rw [Nat.add_one_mul]
    omega
  have hbig : ¬ rest + (binades + 1) * binade < binade := by
    rw [Nat.add_one_mul]
    omega
  have hdiv : (rest + (binades + 1) * binade) / binade = binades + 1 := by
    rw [Nat.add_mul_div_right _ _ binade_pos, Nat.div_eq_of_lt hrest, Nat.zero_add]
  have hmod : (rest + (binades + 1) * binade) % binade = rest := by
    rw [Nat.add_mul_mod_self_right, Nat.mod_eq_of_lt hrest]
  have hmantissa : mantissa (rest + (binades + 1) * binade) = binade + rest := by
    rw [mantissa, if_neg hbig, hmod]
  have hexponent : exponent (rest + (binades + 1) * binade) = (binades : Int) - 1074 := by
    rw [exponent, if_neg hbig, hdiv]
    omega
  rw [hplace, fraction_ratio, hmantissa, hexponent]

/-- A whole number that is the magnitude at a place is rounded to it and is its whole part. -/
theorem nearestPlace_of_ratio {n place : Nat}
    (h : ((fraction place).1 : ℚ) / (fraction place).2 = n) :
    nearestPlace n 1 = place ∧ wholePart place = n := by
  have hden := fraction_den_ne_zero place
  constructor
  · rw [← nearestPlace_fraction place]
    refine nearestPlace_congr Nat.one_ne_zero hden ?_
    rw [h, Nat.cast_one, div_one]
  · have hnum : (fraction place).1 = n * (fraction place).2 := by
      rw [div_eq_iff (by exact_mod_cast hden)] at h
      exact_mod_cast h
    unfold wholePart
    rw [hnum, Nat.mul_div_cancel _ (Nat.pos_of_ne_zero hden)]

theorem nearestPlace_wholePart_zero : nearestPlace 0 1 = 0 ∧ wholePart 0 = 0 := by
  refine nearestPlace_of_ratio ?_
  rw [fraction_ratio, show mantissa 0 = 0 from rfl, Nat.cast_zero, zero_mul]

/-- A whole number of up to 53 binary digits is the magnitude at a finite place. -/
theorem exists_place_of_le {n : Nat} (h : n ≤ 2 * binade) :
    ∃ place < infinityPlace, nearestPlace n 1 = place ∧ wholePart place = n := by
  rcases Nat.eq_zero_or_pos n with rfl | hpos
  · exact ⟨0, by decide, nearestPlace_wholePart_zero⟩
  rcases Nat.lt_or_eq_of_le h with hlt | rfl
  · -- Shifted to the left, the number gets all digits of a mantissa.
    obtain ⟨k, hk⟩ : ∃ k, n.log2 + k = 52 := by
      have hlog : n.log2 < 53 := (Nat.log2_lt (Nat.ne_of_gt hpos)).mpr hlt
      exact ⟨52 - n.log2, by omega⟩
    have hbinade : binade = 2 ^ n.log2 * 2 ^ k := by rw [← Nat.pow_add, hk]; rfl
    have hlow : binade ≤ n * 2 ^ k := by
      rw [hbinade]
      exact Nat.mul_le_mul_right _ (Nat.log2_self_le (Nat.ne_of_gt hpos))
    have hhigh : n * 2 ^ k < 2 * binade := by
      rw [hbinade, ← Nat.mul_assoc, Nat.mul_comm 2, ← Nat.pow_succ]
      exact Nat.mul_lt_mul_of_pos_right Nat.lt_log2_self (Nat.pow_pos (by decide))
    refine ⟨(1074 - k) * binade + n * 2 ^ k, ?_, nearestPlace_of_ratio ?_⟩
    · have hle : (1074 - k) * binade ≤ 1074 * binade := Nat.mul_le_mul_right _ (Nat.sub_le _ _)
      unfold infinityPlace
      omega
    · have hshift : (((1074 - k : Nat) : Int) - 1074) = -(k : Int) := by omega
      rw [fraction_ratio_of_binade_le _ hlow hhigh, hshift, zpow_neg, zpow_natCast]
      push_cast
      field_simp
  · refine ⟨1075 * binade + binade, by decide, nearestPlace_of_ratio ?_⟩
    rw [fraction_ratio_of_binade_le _ (Nat.le_refl _) (by decide)]
    norm_num [binade]

/-- An integer of up to 53 binary digits is kept as it is. -/
theorem toInt64_ofInt64 {v : Int64} (h : v.toInt.natAbs ≤ 2 ^ 53) : (ofInt64 v).toInt64 = v := by
  obtain ⟨place, hplace, hnearest, hwhole⟩ := exists_place_of_le (n := v.toInt.natAbs) h
  have hval : ofInt64 v = .signed (v.toInt < 0) ⟨place, Nat.lt_succ_of_lt hplace⟩ := by
    unfold ofInt64 ofInt ofRatio
    rw [hnearest]
    exact atPlace_val _ ⟨place, Nat.lt_succ_of_lt hplace⟩
  have hint : (if decide (v.toInt < 0) = true then -(v.toInt.natAbs : Int) else v.toInt.natAbs) =
      v.toInt := by
    split <;> simp only [decide_eq_true_eq] at * <;> omega
  rw [hval, toInt64]
  simp only [hwhole]
  rw [hint, Int64.ofIntClamp_toInt]

/-- Both zeros are the same integer. -/
theorem toInt64_withPositiveZero (x : Binary64) : x.withPositiveZero.toInt64 = x.toInt64 := by
  cases x with
  | nan => rfl
  | signed negative place =>
    unfold withPositiveZero
    dsimp only
    split
    · rename_i hzero
      have hwhole := nearestPlace_wholePart_zero.2
      obtain rfl : place = 0 := Fin.ext hzero
      cases negative <;> simp [zero, atPlace, toInt64, hwhole]
    · rfl

end Binary64

/-! ## The text of an integer -/

/-- The decimal of a whole number has the nearest place of the number. -/
theorem Decimal.nearestPlace_whole {n : Nat} (h : decimalLength n ≤ 310) :
    Decimal.nearestPlace ⟨n, 0⟩ = Binary64.nearestPlace n 1 := by
  rcases Nat.eq_zero_or_pos n with rfl | hpos
  · exact nearestPlace_of_digits_eq_zero rfl
  · have hpositive := decimalLength_pos n
    rw [nearestPlace_eq_of_range (Nat.ne_of_gt hpos) (by dsimp only; omega) (by dsimp only; omega),
      fraction_of_nonneg (Int.le_refl 0)]
    dsimp only
    rw [Int.toNat_zero, Nat.pow_zero, Nat.mul_one]

/-- Written digits read as their value. -/
theorem Decimal.read?_toDigits (n : Nat) : read? (Nat.toDigits 10 n) = some ⟨n, 0⟩ := by
  have hdigits : ∀ c ∈ Nat.toDigits 10 n ++ [], c.isDigit = true :=
    fun c hc => isDigit_of_mem_toDigits (List.append_nil _ ▸ hc)
  have h := read?_of_isDigit hdigits Nat.toDigits_ne_nil
  rwa [List.isEmpty_nil, if_pos rfl, List.append_nil, digitsValue_toDigits] at h

/-- An integer is written as its sign and the digits of its magnitude. -/
theorem toList_toString_int (i : Int) :
    (toString i).toList = (Binary64.signText (i < 0)).toList ++ Nat.toDigits 10 i.natAbs := by
  rw [toList_signText]
  cases i with
  | ofNat n => exact Nat.toList_repr
  | negSucc n =>
    rw [if_pos (decide_eq_true (Int.negSucc_lt_zero n)), Int.natAbs_negSucc, ← Nat.toList_repr]
    exact String.toList_append

/-- The text of an integer reads as the number nearest to the integer. -/
theorem readReal_toString (v : Int64) : readReal (toString v.toInt) = .ok (.ofInt64 v) := by
  obtain ⟨c, digits, hdigits⟩ :=
    List.exists_cons_of_ne_nil (Nat.toDigits_ne_nil (n := v.toInt.natAbs) (b := 10))
  have hc : c.isDigit = true := isDigit_of_mem_toDigits (hdigits ▸ List.mem_cons_self)
  have hread : Decimal.read? (c :: digits) = some ⟨v.toInt.natAbs, 0⟩ :=
    hdigits ▸ Decimal.read?_toDigits v.toInt.natAbs
  have hlength : decimalLength v.toInt.natAbs ≤ 310 := by
    have hmagnitude : v.toInt.natAbs ≤ 2 ^ 63 := by
      have hlow := v.le_toInt
      have hhigh := v.toInt_lt
      omega
    have hdigits : decimalLength v.toInt.natAbs ≤ 19 :=
      (decimalLength_le_iff (by decide)).mpr (Nat.lt_of_le_of_lt hmagnitude (by norm_num))
    exact Nat.le_trans hdigits (by decide)
  have htext := toList_toString_int v.toInt
  rw [hdigits] at htext
  rw [readReal_of_isDigit htext hc hread, Decimal.toBinary64, Decimal.nearestPlace_whole hlength]
  rfl

end Telemetry

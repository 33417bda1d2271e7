-- SUMMARY: 64-bit integers through binary64 numbers and back: rounded to multiples of a power of two, in order, at most 512 away, and never twice.
import Mathlib
import Telemetry.Proofs.Number.Wholes

/-!
# Integers on the grid of binary64 numbers

Around a whole number with more than 53 binary digits the binary64 numbers are the multiples of a power of
two, its spacing. Such a number goes to the nearest of these multiples, and every multiple stays where it
is. Up to the powers of two that bound 64-bit integers the spacing is at most 1024. The way back from a
binary64 number to a 64-bit integer changes a whole number only at the upper bound, which is rounded up out
of the range and cut back to itself.
-/

namespace Telemetry

/-! ## Quotients -/

theorem roundHalfEven_mono {num num' : Nat} (den : Nat) (h : num ≤ num') :
    roundHalfEven num den ≤ roundHalfEven num' den := by
  have hquotient : num / den ≤ num' / den := Nat.div_le_div_right h
  have hnum := Nat.div_add_mod num den
  have hnum' := Nat.div_add_mod num' den
  unfold roundHalfEven
  rcases Nat.lt_or_eq_of_le hquotient with hlt | heq
  · dsimp only
    split_ifs <;> omega
  · -- With the same quotient the order is that of the rests.
    rw [heq] at hnum ⊢
    dsimp only
    split_ifs <;> omega

/-- A quotient is rounded by at most a half. -/
theorem roundHalfEven_near (num : Nat) {den : Nat} (hden : 0 < den) :
    2 * (roundHalfEven num den * den) ≤ 2 * num + den ∧
      2 * num ≤ 2 * (roundHalfEven num den * den) + den := by
  have hnum := Nat.div_add_mod num den
  have hrest := Nat.mod_lt num hden
  have hnext : (num / den + 1) * den = den * (num / den) + den := by
    rw [Nat.add_one_mul, Nat.mul_comm]
  unfold roundHalfEven
  dsimp only
  split_ifs with hlow hhigh
  · rw [Nat.mul_comm (num / den) den]
    omega
  · rw [hnext]
    omega
  · rcases Nat.mod_two_eq_zero_or_one (num / den) with heven | hodd
    · rw [heven, Nat.add_zero, Nat.mul_comm (num / den) den]
      omega
    · rw [hodd, hnext]
      omega

/-! ## The grid -/

namespace Binary64

/-- The distance between the binary64 numbers around a whole number, but at least one. -/
def spacing (n : Nat) : Nat :=
  2 ^ (n.log2 - 52)

/-- The multiple of its spacing nearest to a whole number, a tie going to the even multiple. -/
def roundWhole (n : Nat) : Nat :=
  roundHalfEven n (spacing n) * spacing n

theorem spacing_pos (n : Nat) : 0 < spacing n :=
  Nat.pow_pos (by decide)

theorem lt_mul_spacing (n : Nat) : n < 2 ^ 53 * spacing n := by
  unfold spacing
  rw [← Nat.pow_add]
  calc n < 2 ^ (n.log2 + 1) := Nat.lt_log2_self
    _ ≤ 2 ^ (53 + (n.log2 - 52)) := Nat.pow_le_pow_right (by decide) (by omega)

theorem mul_spacing_le {n : Nat} (h : 2 ^ 52 ≤ n) : 2 ^ 52 * spacing n ≤ n := by
  have hn : n ≠ 0 := Nat.ne_of_gt (Nat.lt_of_lt_of_le (by decide) h)
  have hlog : 52 ≤ n.log2 := (Nat.le_log2 hn).mpr h
  unfold spacing
  rw [← Nat.pow_add, Nat.add_sub_cancel' hlog]
  exact Nat.log2_self_le hn

theorem spacing_of_lt {n : Nat} (h : n < 2 ^ 53) : spacing n = 1 := by
  rcases Nat.eq_zero_or_pos n with rfl | hpos
  · rfl
  · have hlog : n.log2 < 53 := (Nat.log2_lt (Nat.ne_of_gt hpos)).mpr h
    unfold spacing
    rw [Nat.sub_eq_zero_of_le (Nat.le_of_lt_succ hlog), Nat.pow_zero]

/-- The multiples of their spacing are the whole numbers of up to 53 binary digits and zeros behind them. -/
theorem spacing_dvd_iff {n : Nat} : spacing n ∣ n ↔ ∃ m < 2 ^ 53, ∃ k, n = m * 2 ^ k := by
  constructor
  · intro h
    refine ⟨n / spacing n, ?_, n.log2 - 52, (Nat.div_mul_cancel h).symm⟩
    exact (Nat.div_lt_iff_lt_mul (spacing_pos n)).mpr (lt_mul_spacing n)
  · rintro ⟨m, hm, k, rfl⟩
    rcases Nat.eq_zero_or_pos m with rfl | hpos
    · rw [Nat.zero_mul]
      exact Nat.dvd_zero _
    · have hpow : 0 < 2 ^ k := Nat.pow_pos (by decide)
      have hlog : (m * 2 ^ k).log2 < 53 + k := by
        refine (Nat.log2_lt (Nat.ne_of_gt (Nat.mul_pos hpos hpow))).mpr ?_
        rw [Nat.pow_add]
        exact Nat.mul_lt_mul_of_pos_right hm hpow
      exact (Nat.pow_dvd_pow 2 (by omega)).trans (Nat.dvd_mul_left _ m)

theorem roundWhole_eq_self_iff {n : Nat} : roundWhole n = n ↔ ∃ m < 2 ^ 53, ∃ k, n = m * 2 ^ k := by
  rw [← spacing_dvd_iff]
  constructor
  · intro h
    exact ⟨roundHalfEven n (spacing n), by rw [Nat.mul_comm]; exact h.symm⟩
  · intro h
    have hround := roundHalfEven_mul_self (spacing_pos n) (n / spacing n)
    rw [Nat.div_mul_cancel h] at hround
    unfold roundWhole
    rw [hround, Nat.div_mul_cancel h]

theorem roundHalfEven_spacing_le (n : Nat) : roundHalfEven n (spacing n) ≤ 2 ^ 53 := by
  have hle := roundHalfEven_mono (spacing n) (Nat.le_of_lt (lt_mul_spacing n))
  rwa [roundHalfEven_mul_self (spacing_pos n)] at hle

theorem le_roundHalfEven_spacing {n : Nat} (h : 2 ^ 52 ≤ n) :
    2 ^ 52 ≤ roundHalfEven n (spacing n) := by
  have hle := roundHalfEven_mono (spacing n) (mul_spacing_le h)
  rwa [roundHalfEven_mul_self (spacing_pos n)] at hle

/-- What has been rounded is on the grid. -/
theorem roundWhole_roundWhole (n : Nat) : roundWhole (roundWhole n) = roundWhole n := by
  refine roundWhole_eq_self_iff.mpr ?_
  rcases Nat.lt_or_eq_of_le (roundHalfEven_spacing_le n) with hlt | heq
  · exact ⟨_, hlt, n.log2 - 52, rfl⟩
  · -- The number has been rounded up to the next power of two.
    refine ⟨1, by decide, 53 + (n.log2 - 52), ?_⟩
    rw [Nat.one_mul, Nat.pow_add]
    unfold roundWhole
    rw [heq]
    rfl

theorem roundWhole_mono {n n' : Nat} (h : n ≤ n') : roundWhole n ≤ roundWhole n' := by
  have hspacing : spacing n ≤ spacing n' := by
    refine Nat.pow_le_pow_right (by decide) (Nat.sub_le_sub_right ?_ 52)
    rw [Nat.log2_eq_log_two, Nat.log2_eq_log_two]
    exact Nat.log_mono_right h
  rcases Nat.lt_or_eq_of_le hspacing with hlt | heq
  · -- A power of two lies between both numbers.
    have hbig : 2 ^ 53 ≤ n' := by
      by_contra hsmall
      rw [spacing_of_lt (Nat.not_le.mp hsmall)] at hlt
      exact absurd (spacing_pos n) (Nat.not_lt.mpr (Nat.le_of_lt_succ hlt))
    have hexponent : n.log2 - 52 < n'.log2 - 52 := (Nat.pow_lt_pow_iff_right (by decide)).mp hlt
    have hdouble : 2 * spacing n ≤ spacing n' := by
      unfold spacing
      rw [← Nat.pow_succ']
      exact Nat.pow_le_pow_right (by decide) hexponent
    calc roundWhole n
        ≤ 2 ^ 53 * spacing n := Nat.mul_le_mul_right _ (roundHalfEven_spacing_le n)
      _ = 2 ^ 52 * (2 * spacing n) := by omega
      _ ≤ 2 ^ 52 * spacing n' := Nat.mul_le_mul_left _ hdouble
      _ ≤ roundWhole n' := Nat.mul_le_mul_right _
        (le_roundHalfEven_spacing (Nat.le_trans (by decide) hbig))
  · unfold roundWhole
    rw [heq]
    exact Nat.mul_le_mul_right _ (roundHalfEven_mono _ h)

/-- Up to the bounds of 64-bit integers, a whole number is moved by at most 512. -/
theorem roundWhole_near {n : Nat} (h : n ≤ 2 ^ 63) :
    roundWhole n ≤ n + 512 ∧ n ≤ roundWhole n + 512 := by
  rcases Nat.lt_or_eq_of_le h with hlt | rfl
  · have hspacing : spacing n ≤ 1024 := by
      rcases Nat.eq_zero_or_pos n with rfl | hpos
      · decide
      · have hlog : n.log2 < 63 := (Nat.log2_lt (Nat.ne_of_gt hpos)).mpr hlt
        have hexponent : n.log2 - 52 ≤ 10 := by omega
        exact Nat.pow_le_pow_right (by decide) hexponent
    obtain ⟨hhigh, hlow⟩ := roundHalfEven_near n (spacing_pos n)
    unfold roundWhole
    omega
  · have hexact : roundWhole (2 ^ 63) = 2 ^ 63 :=
      roundWhole_eq_self_iff.mpr ⟨1, by decide, 63, by decide⟩
    omega

/-! ## Places of whole numbers -/

/-- A whole number of more than 53 binary digits is cut behind the digits of a mantissa. -/
theorem nearestPlace_of_le {n : Nat} (h : 2 ^ 53 ≤ n) :
    nearestPlace n 1 =
      (n.log2 - 52 + 1074) * binade + roundHalfEven n (spacing n) := by
  have hn : n ≠ 0 := Nat.ne_of_gt (Nat.lt_of_lt_of_le (by decide) h)
  have hlog : 53 ≤ n.log2 := (Nat.le_log2 hn).mpr h
  have hfloor : floorLog2 n 1 = n.log2 := by
    rw [floorLog2_eq_log hn Nat.one_ne_zero, Nat.cast_one, div_one, Int.log_natCast,
      Nat.log2_eq_log_two]
  have hexponent : max ((n.log2 : Int) - 52) (-1074) = (n.log2 - 52 : Nat) := by omega
  unfold nearestPlace
  rw [if_neg hn]
  simp only [hfloor, hexponent, Int.natCast_nonneg, if_true, Int.toNat_natCast, Nat.one_mul]
  rfl

/-- A mantissa that was rounded up to the next power of two belongs to the next binade. -/
theorem fraction_ratio_of_le (binades : Nat) {m : Nat} (hlow : binade ≤ m)
    (hhigh : m ≤ 2 * binade) :
    ((fraction (binades * binade + m)).1 : ℚ) / (fraction (binades * binade + m)).2 =
      m * 2 ^ ((binades : Int) - 1074) := by
  rcases Nat.lt_or_eq_of_le hhigh with hlt | rfl
  · exact fraction_ratio_of_binade_le binades hlow hlt
  · have hplace : binades * binade + 2 * binade = (binades + 1) * binade + binade := by
      rw [Nat.two_mul, Nat.add_one_mul, Nat.add_assoc]
    have hshift : ((binades + 1 : Nat) : Int) - 1074 = (binades : Int) - 1074 + 1 := by omega
    rw [hplace, fraction_ratio_of_binade_le _ (Nat.le_refl _) (by decide), hshift,
      zpow_add_one₀ (by norm_num)]
    push_cast
    ring

/-- The whole part of the magnitude nearest to a whole number is the rounded number. -/
theorem wholePart_nearestPlace (n : Nat) : wholePart (nearestPlace n 1) = roundWhole n := by
  rcases Nat.lt_or_ge n (2 ^ 53) with hsmall | hbig
  · obtain ⟨place, -, rfl, hwhole⟩ := exists_place_of_le (n := n) (Nat.le_of_lt hsmall)
    rw [hwhole]
    exact (roundWhole_eq_self_iff.mpr ⟨n, hsmall, 0, by rw [Nat.pow_zero, Nat.mul_one]⟩).symm
  · rw [nearestPlace_of_le hbig]
    refine (nearestPlace_of_ratio ?_).2
    have hlow : binade ≤ roundHalfEven n (spacing n) :=
      le_roundHalfEven_spacing (Nat.le_trans (by decide) hbig)
    have hshift : ((n.log2 - 52 + 1074 : Nat) : Int) - 1074 = (n.log2 - 52 : Nat) := by omega
    rw [fraction_ratio_of_le _ hlow (roundHalfEven_spacing_le n), hshift, zpow_natCast]
    unfold roundWhole spacing
    push_cast
    rfl

/-- The place nearest to the magnitude of a 64-bit integer is finite. -/
theorem nearestPlace_lt_infinityPlace {n : Nat} (h : n ≤ 2 ^ 63) :
    nearestPlace n 1 < infinityPlace := by
  rcases Nat.lt_or_ge n (2 ^ 53) with hsmall | hbig
  · obtain ⟨place, hfinite, rfl, -⟩ := exists_place_of_le (n := n) (Nat.le_of_lt hsmall)
    exact hfinite
  · have hlog : n.log2 < 64 :=
      (Nat.log2_lt (Nat.ne_of_gt (Nat.lt_of_lt_of_le (by decide) hbig))).mpr
        (Nat.lt_of_le_of_lt h (by decide))
    have hround : roundHalfEven n (spacing n) ≤ 2 * binade := roundHalfEven_spacing_le n
    have hbinades : (n.log2 - 52 + 1074) * binade ≤ 1085 * binade :=
      Nat.mul_le_mul_right _ (by omega)
    have hpos := binade_pos
    rw [nearestPlace_of_le hbig]
    unfold infinityPlace
    omega

end Binary64

/-! ## Counts -/

/-- An integer rounded to the nearest binary64 number. -/
def roundInteger (i : Int) : Int :=
  if i < 0 then -(Binary64.roundWhole i.natAbs : Int) else Binary64.roundWhole i.natAbs

/-- What comes back of a 64-bit integer that is kept as a binary64 number. -/
def keptCount (count : Int64) : Int64 :=
  (Binary64.ofInt64 count).toInt64

theorem roundInteger_eq_self_iff {i : Int} :
    roundInteger i = i ↔ ∃ m < 2 ^ 53, ∃ k, i.natAbs = m * 2 ^ k := by
  rw [← Binary64.roundWhole_eq_self_iff]
  unfold roundInteger
  split <;> omega

theorem roundInteger_roundInteger (i : Int) : roundInteger (roundInteger i) = roundInteger i := by
  refine roundInteger_eq_self_iff.mpr (Binary64.roundWhole_eq_self_iff.mp ?_)
  have habs : (roundInteger i).natAbs = Binary64.roundWhole i.natAbs := by
    unfold roundInteger
    split <;> omega
  rw [habs, Binary64.roundWhole_roundWhole]

theorem roundInteger_mono {i j : Int} (h : i ≤ j) : roundInteger i ≤ roundInteger j := by
  unfold roundInteger
  split
  · rename_i hi
    split
    · rename_i hj
      have hle := Binary64.roundWhole_mono (show j.natAbs ≤ i.natAbs by omega)
      omega
    · omega
  · rename_i hi
    have hle := Binary64.roundWhole_mono (show i.natAbs ≤ j.natAbs by omega)
    rw [if_neg (by omega)]
    omega

theorem roundInteger_near {i : Int} (h : i.natAbs ≤ 2 ^ 63) : |roundInteger i - i| ≤ 512 := by
  obtain ⟨hhigh, hlow⟩ := Binary64.roundWhole_near h
  rw [abs_le]
  unfold roundInteger
  split <;> omega

theorem natAbs_toInt_le (v : Int64) : v.toInt.natAbs ≤ 2 ^ 63 := by
  have hlow := v.le_toInt
  have hhigh := v.toInt_lt
  omega

/-- Both bounds are rounded to powers of two, and only the upper one leaves the range. -/
theorem roundInteger_between (v : Int64) :
    Int64.minValue.toInt ≤ roundInteger v.toInt ∧
      roundInteger v.toInt ≤ Int64.maxValue.toInt + 1 := by
  have hpow : roundInteger (2 ^ 63) = 2 ^ 63 :=
    roundInteger_eq_self_iff.mpr ⟨1, by decide, 63, by decide⟩
  have hneg : roundInteger (-2 ^ 63) = -2 ^ 63 :=
    roundInteger_eq_self_iff.mpr ⟨1, by decide, 63, by decide⟩
  have hlow := roundInteger_mono v.le_toInt
  have hhigh := roundInteger_mono (Int.le_of_lt v.toInt_lt)
  rw [hneg] at hlow
  rw [hpow] at hhigh
  rw [Int64.toInt_minValue, Int64.toInt_maxValue]
  omega

theorem keptCount_eq_ofIntClamp (v : Int64) :
    keptCount v = Int64.ofIntClamp (roundInteger v.toInt) := by
  have hfinite := Binary64.nearestPlace_lt_infinityPlace (natAbs_toInt_le v)
  have hval : Binary64.ofInt64 v = .signed (v.toInt < 0)
      ⟨Binary64.nearestPlace v.toInt.natAbs 1, Nat.lt_succ_of_lt hfinite⟩ :=
    Binary64.atPlace_val _ ⟨_, Nat.lt_succ_of_lt hfinite⟩
  unfold keptCount roundInteger
  rw [hval, Binary64.toInt64]
  simp only [Binary64.wholePart_nearestPlace, decide_eq_true_eq]

/-- A count that is rounded up out of the range is the greatest one. -/
theorem toInt_keptCount (v : Int64) :
    (keptCount v).toInt = min (roundInteger v.toInt) Int64.maxValue.toInt := by
  obtain ⟨hlow, hhigh⟩ := roundInteger_between v
  rw [keptCount_eq_ofIntClamp]
  rcases Int.le_total (roundInteger v.toInt) Int64.maxValue.toInt with hle | hge
  · rw [Int64.toInt_ofIntClamp hlow hle, Int.min_eq_left hle]
  · rw [Int.min_eq_right hge]
    rcases Int.lt_or_eq_of_le hge with hlt | heq
    · unfold Int64.ofIntClamp
      rw [dif_pos hlow, dif_neg (Int.not_le.mpr hlt)]
    · rw [← heq, Int64.ofIntClamp_toInt]

theorem keptCount_maxValue : keptCount Int64.maxValue = Int64.maxValue := by
  decide +kernel

/-- Exactly the counts of up to 53 binary digits and zeros behind them come back, and the greatest one. -/
theorem keptCount_eq_self_iff {v : Int64} :
    keptCount v = v ↔ (∃ m < 2 ^ 53, ∃ k, v.toInt.natAbs = m * 2 ^ k) ∨ v = Int64.maxValue := by
  rw [← roundInteger_eq_self_iff, ← Int64.toInt_inj, toInt_keptCount, ← Int64.toInt_inj]
  have hmax := v.toInt_le
  have hgreatest := toInt_keptCount Int64.maxValue
  rw [keptCount_maxValue] at hgreatest
  constructor
  · omega
  · rintro (heq | heq)
    · omega
    · rw [heq]
      omega

theorem keptCount_mono {v w : Int64} (h : v ≤ w) : keptCount v ≤ keptCount w := by
  have hround := roundInteger_mono (Int64.le_iff_toInt_le.mp h)
  rw [Int64.le_iff_toInt_le, toInt_keptCount, toInt_keptCount]
  omega

theorem keptCount_near (v : Int64) : |(keptCount v).toInt - v.toInt| ≤ 512 := by
  have hnear := abs_le.mp (roundInteger_near (natAbs_toInt_le v))
  have hmax := v.toInt_le
  rw [toInt_keptCount, abs_le]
  omega

/-- What has come back once comes back as it is. -/
theorem keptCount_keptCount (v : Int64) : keptCount (keptCount v) = keptCount v := by
  rw [keptCount_eq_self_iff, ← roundInteger_eq_self_iff, ← Int64.toInt_inj, toInt_keptCount]
  rcases Int.le_total (roundInteger v.toInt) Int64.maxValue.toInt with hle | hge
  · rw [Int.min_eq_left hle]
    exact .inl (roundInteger_roundInteger _)
  · exact .inr (Int.min_eq_right hge)

end Telemetry

-- SUMMARY: Decimal digits: the value of written digits, how many there are, and where a run of them ends.
import Mathlib
import Telemetry.Number.Reading

/-!
# Decimal digits

The digits that a natural number is written with have it as their value. Zeros in front of digits
change nothing, and zeros behind them scale the value.
-/

namespace Telemetry

/-! ## Values -/

theorem digitsValue_eq_ofDigitChars (digits : List Char) :
    digitsValue digits = Nat.ofDigitChars 10 digits 0 := by
  unfold digitsValue
  rw [Nat.ofDigitChars_eq_foldl]
  congr 1
  funext acc c
  rw [Nat.mul_comm]

@[simp] theorem digitsValue_nil : digitsValue [] = 0 := rfl

@[simp] theorem digitsValue_toDigits (n : Nat) : digitsValue (Nat.toDigits 10 n) = n := by
  rw [digitsValue_eq_ofDigitChars, Nat.ofDigitChars_ten_toDigits]

theorem digitsValue_append_zeros (digits : List Char) (count : Nat) :
    digitsValue (digits ++ List.replicate count '0') = digitsValue digits * 10 ^ count := by
  rw [digitsValue_eq_ofDigitChars, digitsValue_eq_ofDigitChars, Nat.ofDigitChars_append,
    Nat.ofDigitChars_replicate_zero, Nat.mul_comm]

theorem digitsValue_zeros_append (count : Nat) (digits : List Char) :
    digitsValue (List.replicate count '0' ++ digits) = digitsValue digits := by
  rw [digitsValue_eq_ofDigitChars, digitsValue_eq_ofDigitChars, Nat.ofDigitChars_append,
    Nat.ofDigitChars_replicate_zero, Nat.mul_zero]

/-! ## Runs of digits -/

theorem isDigit_of_mem_toDigits {n : Nat} {c : Char} (h : c ∈ Nat.toDigits 10 n) :
    c.isDigit = true :=
  Nat.isDigit_of_mem_toDigits (by decide) (by decide) h

theorem isDigit_of_mem_zeros {count : Nat} {c : Char} (h : c ∈ List.replicate count '0') :
    c.isDigit = true := by
  rw [List.eq_of_mem_replicate h]
  rfl

/-- Only zero is written with a zero at its head. -/
theorem head?_toDigits_ne_zero {n : Nat} (hn : n ≠ 0) : (Nat.toDigits 10 n).head? ≠ some '0' := by
  have hdigit : ∀ k : Fin 10, k.val ≠ 0 → Nat.digitChar k.val ≠ '0' := by decide
  induction n using Nat.strongRecOn with
  | ind n ih =>
    by_cases hlt : n < 10
    · rw [Nat.toDigits_of_lt_base hlt]
      simpa using hdigit ⟨n, hlt⟩ hn
    · rw [Nat.toDigits_of_base_le (by decide) (Nat.le_of_not_lt hlt),
        List.head?_append_of_ne_nil _ Nat.toDigits_ne_nil]
      exact ih (n / 10) (by omega) (by omega)

theorem digitValue?_of_isDigit {c : Char} (h : c.isDigit = true) :
    digitValue? c = some (c.toNat - '0'.toNat) := by
  unfold digitValue?
  rw [if_pos h]

/-- Characters that satisfy a test end where one does not. -/
theorem span_append {α : Type} {p : α → Bool} {xs rest : List α} (hxs : ∀ x ∈ xs, p x = true)
    (hrest : ∀ x ∈ rest.head?, p x = false) : (xs ++ rest).span p = (xs, rest) := by
  have htake : rest.takeWhile p = [] := by
    cases rest with
    | nil => rfl
    | cons x rest => rw [List.takeWhile_cons, hrest x rfl]; rfl
  have hdrop : rest.dropWhile p = rest := by
    cases rest with
    | nil => rfl
    | cons x rest => rw [List.dropWhile_cons, hrest x rfl]; rfl
  rw [List.span_eq_takeWhile_dropWhile, List.takeWhile_append_of_pos hxs,
    List.dropWhile_append_of_pos hxs, htake, hdrop, List.append_nil]

theorem span_of_forall {α : Type} {p : α → Bool} {xs : List α} (h : ∀ x ∈ xs, p x = true) :
    xs.span p = (xs, []) := by
  have hnil : ∀ x ∈ ([] : List α).head?, p x = false := nofun
  have hspan := span_append h hnil
  rwa [List.append_nil] at hspan

/-! ## The number of digits -/

theorem decimalLength_pos (n : Nat) : 0 < decimalLength n :=
  Nat.length_toDigits_pos

theorem decimalLength_le_iff {n k : Nat} (hk : 0 < k) : decimalLength n ≤ k ↔ n < 10 ^ k :=
  Nat.length_toDigits_le_iff (by decide) hk

theorem lt_pow_decimalLength (n : Nat) : n < 10 ^ decimalLength n :=
  (decimalLength_le_iff (decimalLength_pos n)).mp (Nat.le_refl _)

/-- A number of `k + 1` digits is at least the `k`-th power of ten. -/
theorem pow_le_of_lt_decimalLength {n k : Nat} (hn : n ≠ 0) (hk : k < decimalLength n) :
    10 ^ k ≤ n := by
  rcases Nat.eq_zero_or_pos k with rfl | hpos
  · exact Nat.pos_of_ne_zero hn
  · refine Nat.not_lt.mp fun hlt => ?_
    exact absurd ((decimalLength_le_iff hpos).mpr hlt) (Nat.not_le.mpr hk)

/-- The number of digits is found from the powers of ten around the number. -/
theorem decimalLength_eq_of_bounds {n k : Nat} (hlow : 10 ^ k ≤ n) (hhigh : n < 10 ^ (k + 1)) :
    decimalLength n = k + 1 := by
  refine Nat.le_antisymm ((decimalLength_le_iff (Nat.succ_pos k)).mpr hhigh) ?_
  rcases Nat.eq_zero_or_pos k with rfl | hpos
  · exact decimalLength_pos n
  · refine Nat.not_le.mp fun hle => ?_
    exact absurd hlow (Nat.not_le.mpr ((decimalLength_le_iff hpos).mp hle))

theorem decimalLength_mul_ten {n : Nat} (hn : n ≠ 0) :
    decimalLength (10 * n) = decimalLength n + 1 := by
  obtain ⟨k, hk⟩ : ∃ k, decimalLength n = k + 1 :=
    Nat.exists_eq_succ_of_ne_zero (Nat.ne_of_gt (decimalLength_pos n))
  have hlow : 10 ^ k ≤ n := pow_le_of_lt_decimalLength hn (hk ▸ Nat.lt_succ_self k)
  have hhigh : n < 10 ^ (k + 1) := hk ▸ lt_pow_decimalLength n
  rw [hk]
  refine decimalLength_eq_of_bounds ?_ ?_
  · rw [Nat.pow_succ, Nat.mul_comm]
    exact Nat.mul_le_mul_left 10 hlow
  · rw [Nat.pow_succ 10 (k + 1), Nat.mul_comm]
    exact Nat.mul_lt_mul_of_pos_right hhigh (by decide)

end Telemetry

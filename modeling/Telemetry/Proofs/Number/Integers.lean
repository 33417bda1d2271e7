-- SUMMARY: Integers as text: what is written for an integer reads back as it.
import Telemetry.Proofs.Number.Digits

/-!
# Integers as text

Reading digits keeps a running value that moves away from zero with each digit, so it is in range all
the way if the last value is.
-/

namespace Telemetry

/-- The integer of a sign and a magnitude. -/
def signedInt (negative : Bool) (magnitude : Nat) : Int :=
  if negative then -(magnitude : Int) else magnitude

theorem le_ofDigitChars (digits : List Char) (start : Nat) :
    start ≤ Nat.ofDigitChars 10 digits start := by
  rw [Nat.ofDigitChars_eq_ofDigitChars_zero]
  calc start = 1 * start := (Nat.one_mul start).symm
    _ ≤ 10 ^ digits.length * start := Nat.mul_le_mul_right start (Nat.pow_pos (by decide))
    _ ≤ _ := Nat.le_add_right _ _

theorem signedInt_next (negative : Bool) (n d : Nat) :
    (if negative then signedInt negative n * 10 - d else signedInt negative n * 10 + d) =
      signedInt negative (10 * n + d) := by
  cases negative <;> simp [signedInt] <;> omega

theorem signedInt_between {low high : Int} {negative : Bool} {n v : Nat} (hlow : low ≤ 0)
    (hhigh : 0 ≤ high) (hle : n ≤ v) (hv : low ≤ signedInt negative v)
    (hv' : signedInt negative v ≤ high) :
    low ≤ signedInt negative n ∧ signedInt negative n ≤ high := by
  cases negative <;> simp [signedInt] at * <;> omega

/-- Digits are read onto a running value if the value they lead to is in range. -/
theorem readDigits_eq_ok {low high : Int} (hlow : low ≤ 0) (hhigh : 0 ≤ high) (negative : Bool)
    {digits : List Char} (hdigits : ∀ c ∈ digits, c.isDigit = true) (start : Nat)
    (hv : low ≤ signedInt negative (Nat.ofDigitChars 10 digits start))
    (hv' : signedInt negative (Nat.ofDigitChars 10 digits start) ≤ high) :
    readDigits low high negative digits (signedInt negative start) =
      .ok (signedInt negative (Nat.ofDigitChars 10 digits start)) := by
  induction digits generalizing start with
  | nil =>
    rw [Nat.ofDigitChars_nil]
    rfl
  | cons c digits ih =>
    rw [Nat.ofDigitChars_cons] at hv hv' ⊢
    obtain ⟨hlo, hhi⟩ :=
      signedInt_between hlow hhigh (le_ofDigitChars digits _) hv hv'
    unfold readDigits
    rw [digitValue?_of_isDigit (hdigits c List.mem_cons_self)]
    simp only [signedInt_next]
    rw [if_neg (Int.not_lt.mpr hhi), if_neg (Int.not_lt.mpr hlo)]
    exact ih (fun c hc => hdigits c (List.mem_cons_of_mem _ hc)) _ hv hv'

theorem readInteger_of_isDigit {low high : Int} {text : String} {c : Char} {digits : List Char}
    (h : text.toList = c :: digits) (hc : c.isDigit = true) :
    readInteger low high text = readDigits low high false (c :: digits) 0 := by
  unfold readInteger
  rw [h]
  split <;> rename_i heq
  · cases heq
  · cases heq
    cases hc
  · cases heq
    cases hc
  · cases heq
    cases hc
  · cases heq
    cases hc
  · rfl

theorem readInteger_of_minus {low high : Int} (hlow : low < 0) {text : String} {c : Char}
    {digits : List Char} (h : text.toList = '-' :: c :: digits) :
    readInteger low high text = readDigits low high true (c :: digits) 0 := by
  unfold readInteger
  rw [h]
  exact if_pos hlow

/-- What is written for an integer in range reads back as it. -/
theorem readInteger_toString {low high i : Int} (hlow : low < 0) (hhigh : 0 ≤ high)
    (hi : low ≤ i) (hi' : i ≤ high) : readInteger low high (toString i) = .ok i := by
  cases i with
  | ofNat n =>
    obtain ⟨c, digits, hdigits⟩ := List.exists_cons_of_ne_nil (Nat.toDigits_ne_nil (n := n) (b := 10))
    have htext : (toString (Int.ofNat n)).toList = c :: digits := Nat.toList_repr.trans hdigits
    have hall : ∀ d ∈ c :: digits, d.isDigit = true := hdigits ▸ fun _ => isDigit_of_mem_toDigits
    have hvalue : Nat.ofDigitChars 10 (c :: digits) 0 = n := hdigits ▸ Nat.ofDigitChars_ten_toDigits
    rw [readInteger_of_isDigit htext (hall c List.mem_cons_self)]
    have hread := readDigits_eq_ok (Int.le_of_lt hlow) hhigh false hall 0
      (hvalue.symm ▸ hi) (hvalue.symm ▸ hi')
    rwa [hvalue] at hread
  | negSucc n =>
    obtain ⟨c, digits, hdigits⟩ :=
      List.exists_cons_of_ne_nil (Nat.toDigits_ne_nil (n := n + 1) (b := 10))
    have htext : (toString (Int.negSucc n)).toList = '-' :: c :: digits := by
      rw [← hdigits, ← Nat.toList_repr]
      exact String.toList_append
    have hall : ∀ d ∈ c :: digits, d.isDigit = true := hdigits ▸ fun _ => isDigit_of_mem_toDigits
    have hvalue : Nat.ofDigitChars 10 (c :: digits) 0 = n + 1 :=
      hdigits ▸ Nat.ofDigitChars_ten_toDigits
    rw [readInteger_of_minus hlow htext]
    have hread := readDigits_eq_ok (Int.le_of_lt hlow) hhigh true hall 0
      (hvalue.symm ▸ hi) (hvalue.symm ▸ hi')
    rwa [hvalue] at hread

/-- What is written for a 64-bit integer reads back as it. -/
theorem readInt64_toString (a : Int64) : readInt64 (toString a.toInt) = .ok a := by
  unfold readInt64
  rw [readInteger_toString (by decide) (by decide) a.minValue_le_toInt a.toInt_le]
  exact congrArg Except.ok a.ofInt_toInt

end Telemetry

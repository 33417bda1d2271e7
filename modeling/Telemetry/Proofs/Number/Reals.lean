-- SUMMARY: Binary64 numbers as text: what is written for a number in the plain notation reads back as it.
import Telemetry.Number.Notation
import Telemetry.Proofs.Number.Decimals

/-!
# Binary64 numbers as text

The plain notation writes the digits of a decimal around a point. Reading joins the digits again and
takes the exponent from the number of those behind the point, which gives the decimal back up to zeros
that moved between digits and exponent.
-/

namespace Telemetry

theorem toList_zeros (count : Nat) : (zeros count).toList = List.replicate count '0' :=
  String.toList_ofList

theorem toList_toString_nat (n : Nat) : (toString n).toList = Nat.toDigits 10 n :=
  Nat.toList_repr

theorem length_toString_nat (n : Nat) : (toString n).length = decimalLength n := by
  rw [← String.length_toList, toList_toString_nat]
  rfl

theorem isEmpty_toList (text : String) : text.toList.isEmpty = text.isEmpty := by
  rw [Bool.eq_iff_iff, List.isEmpty_iff, String.isEmpty_iff, String.toList_eq_nil_iff]

namespace Decimal

/-! ## The digits around the point -/

theorem split_of_zero {d : Decimal} (h : 0 ≤ d.exponent) (hzero : d.digits = 0) :
    d.split = ("0", "") := by
  unfold split
  simp only [if_pos h, if_pos hzero]

theorem split_of_whole {d : Decimal} (h : 0 ≤ d.exponent) (hdigits : d.digits ≠ 0) :
    d.split = (toString d.digits ++ zeros d.exponent.toNat, "") := by
  unfold split
  simp only [if_pos h, if_neg hdigits]

theorem split_of_inner {d : Decimal} (h : ¬ 0 ≤ d.exponent)
    (hpoint : 0 < (decimalLength d.digits : Int) + d.exponent) :
    d.split =
      (((toString d.digits).take ((decimalLength d.digits : Int) + d.exponent).toNat).toString,
        ((toString d.digits).drop ((decimalLength d.digits : Int) + d.exponent).toNat).toString) := by
  unfold split
  simp only [if_neg h, length_toString_nat, if_pos hpoint]

theorem split_of_small {d : Decimal} (h : ¬ 0 ≤ d.exponent)
    (hpoint : ¬ 0 < (decimalLength d.digits : Int) + d.exponent) :
    d.split =
      ("0", zeros (-((decimalLength d.digits : Int) + d.exponent)).toNat ++ toString d.digits) := by
  unfold split
  simp only [if_neg h, length_toString_nat, if_neg hpoint]

/-- What the written parts of a decimal have to be for it to read back: digits, at least one of them
    before the point, with the nearest place of the decimal. -/
structure Parts (d : Decimal) (whole part : List Char) : Prop where
  isDigit : ∀ c ∈ whole ++ part, c.isDigit = true
  ne_nil : whole ≠ []
  nearestPlace_eq :
    nearestPlace ⟨digitsValue (whole ++ part), -(part.length : Int)⟩ = d.nearestPlace

theorem nearestPlace_of_digits_eq_zero {d : Decimal} (h : d.digits = 0) : d.nearestPlace = 0 := by
  rw [Decimal.nearestPlace]
  exact if_pos h

theorem parts_of_zero {d : Decimal} (hzero : d.digits = 0) : d.Parts ['0'] [] where
  isDigit := by
    intro c hc
    obtain rfl := List.mem_singleton.mp hc
    rfl
  ne_nil := List.cons_ne_nil _ _
  nearestPlace_eq := by
    rw [nearestPlace_of_digits_eq_zero hzero]
    exact nearestPlace_of_digits_eq_zero (by decide)

theorem parts_of_whole {d : Decimal} {k : Nat} (hk : d.exponent = k) :
    d.Parts (Nat.toDigits 10 d.digits ++ List.replicate k '0') [] where
  isDigit := by
    intro c hc
    rw [List.append_nil] at hc
    rcases List.mem_append.mp hc with hc | hc
    · exact isDigit_of_mem_toDigits hc
    · exact isDigit_of_mem_zeros hc
  ne_nil := List.append_ne_nil_of_left_ne_nil Nat.toDigits_ne_nil _
  nearestPlace_eq := by
    rw [List.append_nil, digitsValue_append_zeros, digitsValue_toDigits]
    exact (nearestPlace_mul_pow d.digits k 0).trans (by rw [Int.zero_add, ← hk])

theorem parts_of_inner {d : Decimal} {n k : Nat} (hk : d.exponent = -(k : Int)) (hn : n ≠ 0)
    (hlength : n + k = decimalLength d.digits) :
    d.Parts ((Nat.toDigits 10 d.digits).take n) ((Nat.toDigits 10 d.digits).drop n) where
  isDigit := by
    rw [List.take_append_drop]
    exact fun c => isDigit_of_mem_toDigits
  ne_nil := by
    rw [Ne, List.take_eq_nil_iff]
    exact not_or.mpr ⟨hn, Nat.toDigits_ne_nil⟩
  nearestPlace_eq := by
    have hdrop : ((Nat.toDigits 10 d.digits).drop n).length = k := by
      rw [List.length_drop]
      exact Nat.sub_eq_of_eq_add' hlength.symm
    rw [List.take_append_drop, digitsValue_toDigits, hdrop, ← hk]

theorem parts_of_small {d : Decimal} {n k : Nat} (hk : d.exponent = -(k : Int))
    (hlength : n + decimalLength d.digits = k) :
    d.Parts ['0'] (List.replicate n '0' ++ Nat.toDigits 10 d.digits) where
  isDigit := by
    intro c hc
    rcases List.mem_append.mp hc with hc | hc
    · exact isDigit_of_mem_zeros (List.mem_replicate.mpr ⟨Nat.one_ne_zero, List.mem_singleton.mp hc⟩)
    rcases List.mem_append.mp hc with hc | hc
    · exact isDigit_of_mem_zeros hc
    · exact isDigit_of_mem_toDigits hc
  ne_nil := by decide
  nearestPlace_eq := by
    have hvalue : digitsValue (['0'] ++ (List.replicate n '0' ++ Nat.toDigits 10 d.digits)) =
        d.digits :=
      (digitsValue_zeros_append (n + 1) _).trans (digitsValue_toDigits d.digits)
    have hpart : (List.replicate n '0' ++ Nat.toDigits 10 d.digits).length = k := by
      rw [List.length_append, List.length_replicate]
      exact hlength
    rw [hvalue, hpart, ← hk]

/-- The parts that a decimal is split into read back. -/
theorem parts_split (d : Decimal) : d.Parts d.split.1.toList d.split.2.toList := by
  by_cases h : 0 ≤ d.exponent
  · obtain ⟨k, hk⟩ := Int.eq_ofNat_of_zero_le h
    by_cases hzero : d.digits = 0
    · rw [split_of_zero h hzero]
      exact parts_of_zero hzero
    · rw [split_of_whole h hzero, String.toList_append, toList_toString_nat, toList_zeros, hk,
        Int.toNat_natCast]
      exact parts_of_whole hk
  · obtain ⟨k, hk⟩ := Int.eq_ofNat_of_zero_le (by omega : 0 ≤ -d.exponent)
    have hk' : d.exponent = -(k : Int) := by omega
    by_cases hpoint : 0 < (decimalLength d.digits : Int) + d.exponent
    · obtain ⟨n, hn⟩ := Int.eq_ofNat_of_zero_le (Int.le_of_lt hpoint)
      rw [split_of_inner h hpoint, hn, Int.toNat_natCast, String.Slice.toString_eq,
        String.toList_copy_take, String.toList_copy_drop, toList_toString_nat]
      exact parts_of_inner hk' (by omega) (by omega)
    · obtain ⟨n, hn⟩ := Int.eq_ofNat_of_zero_le
        (by omega : 0 ≤ -((decimalLength d.digits : Int) + d.exponent))
      rw [split_of_small h hpoint, String.toList_append, toList_toString_nat, toList_zeros, hn,
        Int.toNat_natCast]
      dsimp only
      exact parts_of_small hk' (by omega)

/-! ## Reading a decimal back -/

/-- A run of digits, then a point and digits behind it if there are any, is read as one decimal. -/
theorem read?_of_isDigit {whole part : List Char} (h : ∀ c ∈ whole ++ part, c.isDigit = true)
    (hne : whole ≠ []) :
    read? (whole ++ if part.isEmpty then [] else '.' :: part) =
      some ⟨digitsValue (whole ++ part), -(part.length : Int)⟩ := by
  have hwhole : ∀ c ∈ whole, c.isDigit = true := fun c hc => h c (List.mem_append_left _ hc)
  have hpart : ∀ c ∈ part, c.isDigit = true := fun c hc => h c (List.mem_append_right _ hc)
  have hempty : whole.isEmpty = false := List.isEmpty_eq_false_iff.mpr hne
  unfold read?
  cases part with
  | nil =>
    rw [span_append hwhole (by simp)]
    simp [hempty, readPower?]
  | cons c part =>
    have hspan : (c :: part).span Char.isDigit = (c :: part, []) := span_of_forall hpart
    rw [span_append hwhole (by simp)]
    simp only [List.isEmpty_cons, Bool.false_eq_true, if_false, hspan, hempty, Bool.false_and,
      readPower?, Option.map_some, Int.zero_sub]

/-- A decimal in the plain notation. -/
theorem toList_write_plain (d : Decimal) :
    (d.write .plain).toList =
      d.split.1.toList ++ if d.split.2.toList.isEmpty then [] else '.' :: d.split.2.toList := by
  have hpositional : (NumberNotation.plain.lowest.all (· ≤ d.leadingPower) &&
      NumberNotation.plain.highest.all (d.leadingPower ≤ ·)) = true := rfl
  unfold write
  simp only [hpositional, Bool.or_true, if_true]
  rw [String.toList_append]
  congr 1
  rw [isEmpty_toList]
  split
  · rfl
  · exact String.toList_append

/-- Reading takes back what the plain notation writes, up to zeros that moved. -/
theorem read?_write_plain (d : Decimal) :
    ∃ d', read? (d.write .plain).toList = some d' ∧ d'.nearestPlace = d.nearestPlace := by
  obtain ⟨hdigits, hne, hnearest⟩ := parts_split d
  rw [toList_write_plain, read?_of_isDigit hdigits hne]
  exact ⟨_, rfl, hnearest⟩

/-- The plain notation begins with a digit. -/
theorem head_write_plain (d : Decimal) :
    ∃ c rest, (d.write .plain).toList = c :: rest ∧ c.isDigit = true := by
  obtain ⟨hdigits, hne, -⟩ := parts_split d
  obtain ⟨c, whole, hwhole⟩ := List.exists_cons_of_ne_nil hne
  rw [toList_write_plain, hwhole]
  exact ⟨c, _, rfl, hdigits c (by rw [hwhole]; exact List.mem_cons_self)⟩

end Decimal

/-! ## Reading a number back -/

theorem Binary64.atPlace_val (negative : Bool) (place : Fin (Binary64.infinityPlace + 1)) :
    Binary64.atPlace negative place = .signed negative place := by
  unfold Binary64.atPlace
  congr
  exact Nat.min_eq_left (Nat.le_of_lt_succ place.isLt)

theorem toList_signText (negative : Bool) :
    (Binary64.signText negative).toList = if negative then ['-'] else [] := by
  cases negative <;> rfl

theorem toLower_of_isDigit {c : Char} (h : c.isDigit = true) : c.toLower = c := by
  unfold Char.isDigit at h
  have hle : c.val ≤ '9'.val := of_decide_eq_true (Bool.and_eq_true_iff.mp h).2
  unfold Char.toLower
  refine dif_neg fun hletter => ?_
  exact absurd (UInt32.le_trans hletter.1 hle) (by decide)

theorem splitSign_signText {negative : Bool} {c : Char} {rest : List Char}
    (hc : c.isDigit = true) :
    splitSign ((Binary64.signText negative).toList ++ c :: rest) = (negative, c :: rest) := by
  cases negative with
  | true => rfl
  | false =>
    rw [toList_signText]
    unfold splitSign
    split <;> rename_i heq
    · cases heq
      cases hc
    · cases heq
      cases hc
    · rfl

/-- A text that begins with a digit after its sign is none of the words. -/
theorem readReal_of_isDigit {negative : Bool} {text : String} {c : Char} {rest : List Char}
    {d : Decimal} (h : text.toList = (Binary64.signText negative).toList ++ c :: rest)
    (hc : c.isDigit = true) (hd : Decimal.read? (c :: rest) = some d) :
    readReal text = .ok (d.toBinary64 negative) := by
  have hempty : text.isEmpty = false := by
    rw [← isEmpty_toList, h]
    cases negative <;> rfl
  have hword : ∀ {first : Char} {others : List Char}, first.isDigit = false →
      (c :: rest).map Char.toLower ≠ first :: others := by
    intro first others hfirst heq
    rw [List.map_cons, toLower_of_isDigit hc] at heq
    cases heq
    rw [hc] at hfirst
    cases hfirst
  have hinf : (c :: rest).map Char.toLower ≠ "inf".toList := hword rfl
  have hinfinity : (c :: rest).map Char.toLower ≠ "infinity".toList := hword rfl
  have hnan : (c :: rest).map Char.toLower ≠ "nan".toList := hword rfl
  unfold readReal
  rw [h, splitSign_signText hc]
  simp only [hempty, hinf, hinfinity, hnan, hd, decide_false, Bool.or_self, Bool.false_eq_true,
    if_false]

/-- What is written for a number reads back as it, not-a-number and the infinities included. -/
theorem readReal_text (x : Binary64) : readReal x.text = .ok x := by
  cases x with
  | nan => rfl
  | signed negative place =>
    by_cases h : place.val = Binary64.infinityPlace
    · have htext : (Binary64.signed negative place).text =
          Binary64.signText negative ++ "inf" :=
        congrArg (Binary64.signText negative ++ ·) (if_pos h)
      obtain rfl : place = ⟨Binary64.infinityPlace, Nat.lt_succ_self _⟩ := Fin.ext h
      rw [htext]
      cases negative <;> rfl
    · have htext : (Binary64.signed negative place).text =
          Binary64.signText negative ++ (Binary64.shortestDecimal place).write .plain :=
        congrArg (Binary64.signText negative ++ ·) (if_neg h)
      obtain ⟨c, rest, hwrite, hc⟩ := (Binary64.shortestDecimal place).head_write_plain
      obtain ⟨d, hd, hnearest⟩ := (Binary64.shortestDecimal place).read?_write_plain
      rw [hwrite] at hd
      rw [htext, readReal_of_isDigit (by rw [String.toList_append, hwrite]) hc hd]
      unfold Decimal.toBinary64
      rw [hnearest, Binary64.nearestPlace_shortestDecimal
        (Nat.lt_of_le_of_ne (Nat.le_of_lt_succ place.isLt) h), Binary64.atPlace_val]

end Telemetry

-- SUMMARY: JSON numbers: the record notation of a finite number and the text of an integer denote numbers that read back as them.
import Mathlib
import Telemetry.Proofs.Json.Values
import Telemetry.Proofs.Number.Wholes

/-!
# JSON numbers

A number is a sign, digits without a zero at their head, perhaps a point and digits behind it, and perhaps
a power of ten. The reader takes these parts one after the other, each up to the first symbol that cannot
belong to it. The record notation has either a point or a power of ten, so it is never read as an integer,
and integers have neither.
-/

namespace Telemetry.Json

/-! ## The parts of a number -/

/-- A power of ten behind a number. -/
def powerText : Option Int → List Char
  | none => []
  | some power => 'e' :: (if 0 ≤ power then '+' else '-') :: Nat.toDigits 10 power.natAbs

/-- The digits behind the point, if there are any. -/
def pointText (part : List Char) : List Char :=
  if part.isEmpty then [] else '.' :: part

/-- A number without its sign. -/
def numberText (whole part : List Char) (power : Option Int) : List Char :=
  whole ++ (pointText part ++ powerText power)

/-- Digits in front of the point: the first is a zero only if it stands alone. -/
structure Whole (whole : List Char) : Prop where
  isDigit : ∀ c ∈ whole, c.isDigit = true
  ne_nil : whole ≠ []
  head : whole.head? = some '0' → whole = ['0']

theorem whole_zero : Whole ['0'] :=
  ⟨by simp, List.cons_ne_nil _ _, fun _ => rfl⟩

theorem whole_of_toDigits {n : Nat} (hn : n ≠ 0) {whole : List Char} (hne : whole ≠ [])
    (hhead : whole <+: Nat.toDigits 10 n) : Whole whole where
  isDigit := fun _ hc => isDigit_of_mem_toDigits (hhead.subset hc)
  ne_nil := hne
  head := by
    obtain ⟨c, rest, rfl⟩ := List.exists_cons_of_ne_nil hne
    obtain ⟨others, hothers⟩ := hhead
    intro hhead
    refine absurd ?_ (head?_toDigits_ne_zero hn)
    rw [← hothers]
    exact hhead

/-! ## Reading the parts -/

theorem digits_append {chars : List Char} {rest : Symbols} (h : ∀ c ∈ chars, c.isDigit = true)
    (hrest : ∀ s ∈ rest.head?, isDigit s = false) : digits (chars.map some ++ rest) = (chars, rest) := by
  have hsymbols : ∀ s ∈ chars.map some, isDigit s = true := by
    simpa [isDigit] using h
  have hspan := span_append hsymbols hrest
  rw [List.span_eq_takeWhile_dropWhile, Prod.mk.injEq] at hspan
  unfold digits
  rw [hspan.1, hspan.2]
  simp

theorem fraction?_append {part : List Char} {rest : Symbols} (h : ∀ c ∈ part, c.isDigit = true)
    (hrest : ∀ s ∈ rest.head?, isDigit s = false ∧ s ≠ some '.') :
    fraction? ((pointText part).map some ++ rest) = some (part, rest) := by
  cases part with
  | nil =>
    unfold fraction? pointText
    split
    · rename_i others heq
      have hhead : some '.' ∈ rest.head? := by
        rw [show rest = some '.' :: others from heq]
        rfl
      exact absurd rfl (hrest _ hhead).2
    · rfl
  | cons c part =>
    have hdigits := digits_append h fun s hs => (hrest s hs).1
    simp only [pointText, List.isEmpty_cons, Bool.false_eq_true, if_false, List.map_cons,
      List.cons_append] at hdigits ⊢
    simp only [fraction?, hdigits, List.isEmpty_cons, Bool.false_eq_true, if_false]

theorem power?_append (power : Option Int) {rest : Symbols} (hrest : Ends rest) :
    power? ((powerText power).map some ++ rest) = some (power, rest) := by
  cases power with
  | none =>
    unfold power? powerText
    split
    · rename_i mark others heq
      have hhead : some mark ∈ rest.head? := by
        rw [show rest = some mark :: others from heq]
        rfl
      obtain ⟨-, -, he, hE⟩ := hrest _ hhead
      rw [if_neg (by simpa using ⟨he ∘ congrArg some, hE ∘ congrArg some⟩)]
      rfl
    · rfl
  | some power =>
    have hdigits := digits_append (fun c => isDigit_of_mem_toDigits (n := power.natAbs))
      fun s hs => (hrest s hs).1
    have hne : (Nat.toDigits 10 power.natAbs).isEmpty = false :=
      List.isEmpty_eq_false_iff.mpr Nat.toDigits_ne_nil
    unfold power? powerText
    by_cases hsign : 0 ≤ power
    · simp [hsign, hdigits, hne]
    · simp [hsign, hdigits, hne, abs_of_neg (Int.not_le.mp hsign)]

theorem head_powerText (power : Option Int) {rest : Symbols} (hrest : Ends rest) :
    ∀ s ∈ ((powerText power).map some ++ rest).head?, isDigit s = false ∧ s ≠ some '.' := by
  cases power with
  | none => exact fun s hs => ⟨(hrest s hs).1, (hrest s hs).2.1⟩
  | some power =>
    intro s hs
    cases hs
    decide

theorem head_pointText (part : List Char) (power : Option Int) {rest : Symbols}
    (hrest : Ends rest) :
    ∀ s ∈ ((pointText part).map some ++ ((powerText power).map some ++ rest)).head?,
      isDigit s = false := by
  cases part with
  | nil => exact fun s hs => (head_powerText power hrest s hs).1
  | cons c part =>
    intro s hs
    cases hs
    decide

/-- The number that is written with given parts. -/
def numeralOf (negative : Bool) (whole part : List Char) (power : Option Int) : Numeral :=
  ⟨negative, ⟨digitsValue (whole ++ part), power.getD 0 - part.length⟩,
    part.isEmpty && power.isNone⟩

theorem unsigned?_numberText (negative : Bool) {whole part : List Char} (hwhole : Whole whole)
    (hpart : ∀ c ∈ part, c.isDigit = true) (power : Option Int) {rest : Symbols}
    (hrest : Ends rest) :
    unsigned? negative ((numberText whole part power).map some ++ rest) =
      some (numeralOf negative whole part power, rest) := by
  have hdigits := digits_append hwhole.isDigit (head_pointText part power hrest)
  have hfraction := fraction?_append hpart (head_powerText power hrest)
  have hpower := power?_append power hrest
  unfold numberText unsigned?
  rw [List.map_append, List.map_append, List.append_assoc, List.append_assoc, hdigits]
  dsimp only
  split
  · exact absurd rfl hwhole.ne_nil
  · cases hwhole.head rfl
  · rw [hfraction]
    dsimp only
    rw [hpower]
    rfl

/-! ## Numbers as values -/

/-- A number with its sign. -/
def signedText (negative : Bool) (text : List Char) : List Char :=
  (Binary64.signText negative).toList ++ text

theorem numeral?_signedText (negative : Bool) {whole part : List Char} (hwhole : Whole whole)
    (hpart : ∀ c ∈ part, c.isDigit = true) (power : Option Int) {rest : Symbols}
    (hrest : Ends rest) :
    numeral? ((signedText negative (numberText whole part power)).map some ++ rest) =
      some (numeralOf negative whole part power, rest) := by
  have hunsigned := unsigned?_numberText negative hwhole hpart power hrest
  cases negative with
  | true => exact hunsigned
  | false =>
    refine Eq.trans ?_ hunsigned
    unfold numeral?
    split
    · rename_i others heq
      -- No whole part begins with a minus.
      obtain ⟨c, whole, rfl⟩ := List.exists_cons_of_ne_nil hwhole.ne_nil
      cases heq
      exact absurd (hwhole.isDigit '-' List.mem_cons_self) (by decide)
    · rfl

/-- A text that begins with a digit or a minus is read as a number. -/
theorem value?_of_numeral {c : Char} (hc : c = '-' ∨ c.isDigit = true) (fuel : Nat)
    (input : Symbols) :
    value? (fuel + 1) (some c :: input) =
      (numeral? (some c :: input)).map fun (n, rest) => (.number n, rest) := by
  have hblank : isBlank (some c) = false := by
    rcases hc with rfl | hc
    · rfl
    · unfold isBlank
      simp only [Bool.or_eq_false_iff, beq_eq_false_iff_ne]
      refine ⟨⟨⟨?_, ?_⟩, ?_⟩, ?_⟩ <;> rintro heq <;> cases heq <;> cases hc
  unfold value?
  rw [skipBlanks_of_not_blank hblank]
  split <;> first | rfl | (rename_i heq; cases heq; rcases hc with hc | hc <;> cases hc)

theorem denotes_number (negative : Bool) {whole part : List Char} (hwhole : Whole whole)
    (hpart : ∀ c ∈ part, c.isDigit = true) (power : Option Int) :
    Denotes ((signedText negative (numberText whole part power)).map some)
      (.number (numeralOf negative whole part power)) := by
  intro fuel rest hfuel hrest
  have hnumeral := numeral?_signedText negative hwhole hpart power hrest
  obtain ⟨c, others, htext, hc⟩ : ∃ c others,
      signedText negative (numberText whole part power) = c :: others ∧
        (c = '-' ∨ c.isDigit = true) := by
    obtain ⟨c, whole, rfl⟩ := List.exists_cons_of_ne_nil hwhole.ne_nil
    cases negative with
    | true => exact ⟨'-', _, rfl, .inl rfl⟩
    | false => exact ⟨c, _, rfl, .inr (hwhole.isDigit c List.mem_cons_self)⟩
  rw [htext] at hfuel hnumeral ⊢
  obtain ⟨fuel, rfl⟩ : ∃ n, fuel = n + 1 := by
    refine ⟨fuel - 1, ?_⟩
    rw [List.map_cons, List.length_cons] at hfuel
    omega
  rw [List.map_cons, List.cons_append] at hnumeral ⊢
  rw [value?_of_numeral hc, hnumeral]
  rfl

/-! ## Integers -/

theorem whole_toDigits (n : Nat) : Whole (Nat.toDigits 10 n) := by
  by_cases hn : n = 0
  · rw [hn]
    exact whole_zero
  · exact whole_of_toDigits hn Nat.toDigits_ne_nil (List.prefix_refl _)

theorem integer?_numeralOf_toDigits (i : Int) :
    (numeralOf (i < 0) (Nat.toDigits 10 i.natAbs) [] none).integer? = some i := by
  have hzero : ¬ (i < 0 ∧ i.natAbs = 0) := by omega
  unfold numeralOf Numeral.integer?
  simp only [List.append_nil, digitsValue_toDigits, List.isEmpty_nil, Option.isNone_none,
    Bool.and_self, Bool.not_true, Bool.false_or, Bool.and_eq_true, decide_eq_true_eq, if_neg hzero]
  split <;> congr 1 <;> omega

/-- The text of a 64-bit integer denotes it. -/
theorem denotes_int64 (i : Int64) :
    ∃ v : Json, Denotes (symbolsOf (toString i.toInt)) v ∧ v.optional? int64? = some (some i) := by
  have hdenotes := denotes_number (i.toInt < 0) (whole_toDigits i.toInt.natAbs)
    (fun c (hc : c ∈ []) => nomatch hc) none
  have htext : symbolsOf (toString i.toInt) =
      (signedText (i.toInt < 0) (numberText (Nat.toDigits 10 i.toInt.natAbs) [] none)).map some := by
    unfold symbolsOf signedText numberText
    rw [toList_toString_int]
    simp [pointText, powerText]
  refine ⟨_, htext ▸ hdenotes, ?_⟩
  have hrange : (decide (Int64.minValue.toInt ≤ i.toInt) && decide (i.toInt ≤ Int64.maxValue.toInt)) =
      true := by
    simpa using ⟨i.minValue_le_toInt, i.toInt_le⟩
  unfold optional? int64? Numeral.int64?
  simp only [integer?_numeralOf_toDigits, Option.bind_some, hrange, if_true, Int64.ofInt_toInt,
    Option.map_some]

/-! ## Reals -/

/-- The part in front of the point of a decimal. -/
theorem whole_split (d : Decimal) : Whole d.split.1.toList := by
  by_cases h : 0 ≤ d.exponent
  · by_cases hzero : d.digits = 0
    · rw [Decimal.split_of_zero h hzero]
      exact whole_zero
    · rw [Decimal.split_of_whole h hzero]
      dsimp only
      rw [String.toList_append, toList_toString_nat, toList_zeros]
      refine ⟨fun c hc => ?_, List.append_ne_nil_of_left_ne_nil Nat.toDigits_ne_nil _, fun hhead => ?_⟩
      · exact (List.mem_append.mp hc).elim isDigit_of_mem_toDigits isDigit_of_mem_zeros
      · rw [List.head?_append_of_ne_nil _ Nat.toDigits_ne_nil] at hhead
        exact absurd hhead (head?_toDigits_ne_zero hzero)
  · by_cases hpoint : 0 < (decimalLength d.digits : Int) + d.exponent
    · rw [Decimal.split_of_inner h hpoint]
      dsimp only
      rw [String.Slice.toString_eq, String.toList_copy_take, toList_toString_nat]
      have hdigits : d.digits ≠ 0 := by
        intro hzero
        rw [hzero, show decimalLength 0 = 1 from rfl] at hpoint
        omega
      refine whole_of_toDigits hdigits ?_ (List.take_prefix _ _)
      rw [Ne, List.take_eq_nil_iff]
      exact not_or.mpr ⟨by omega, Nat.toDigits_ne_nil⟩
    · have hwhole : d.split.1 = "0" := congrArg Prod.fst (Decimal.split_of_small h hpoint)
      rw [hwhole]
      exact whole_zero

/-- What stands behind the whole part: a mark if nothing does, else a point and digits. -/
theorem toList_behind (mark rest : String) :
    (if rest.isEmpty then mark else "." ++ rest).toList =
      if rest.toList.isEmpty then mark.toList else '.' :: rest.toList := by
  rw [isEmpty_toList]
  split
  · rfl
  · exact String.toList_append

theorem toList_scientific (d : Decimal) :
    (d.scientific "+").toList = numberText ((Nat.toDigits 10 d.digits).take 1)
      ((Nat.toDigits 10 d.digits).drop 1) (some d.leadingPower) := by
  have hwhole : ((toString d.digits).take 1).toString.toList = (Nat.toDigits 10 d.digits).take 1 := by
    rw [String.Slice.toString_eq, String.toList_copy_take, toList_toString_nat]
  have hpart : ((toString d.digits).drop 1).toString.toList = (Nat.toDigits 10 d.digits).drop 1 := by
    rw [String.Slice.toString_eq, String.toList_copy_drop, toList_toString_nat]
  have hsign : (if 0 ≤ d.leadingPower then "+" else "-").toList =
      [if 0 ≤ d.leadingPower then '+' else '-'] := by
    split <;> rfl
  unfold Decimal.scientific
  simp only [String.toList_append, toList_behind, hwhole, hpart, hsign, toList_toString_nat]
  unfold numberText pointText powerText
  simp

theorem toList_positional (d : Decimal) :
    (d.split.1 ++ if d.split.2.isEmpty then NumberNotation.record.wholeMark
      else "." ++ d.split.2).toList =
      numberText d.split.1.toList (if d.split.2.toList.isEmpty then ['0'] else d.split.2.toList)
        none := by
  rw [String.toList_append, toList_behind]
  unfold numberText pointText powerText
  split <;> simp_all [NumberNotation.record]

/-- The characters are a number that reads back as a decimal, up to zeros that moved. -/
def NumberFor (d : Decimal) (chars : List Char) : Prop :=
  ∃ whole part power, chars = numberText whole part power ∧ Whole whole ∧
    (∀ c ∈ part, c.isDigit = true) ∧
    Decimal.nearestPlace ⟨digitsValue (whole ++ part), power.getD 0 - part.length⟩ = d.nearestPlace

theorem numberFor_positional (d : Decimal) :
    NumberFor d (d.split.1 ++ if d.split.2.isEmpty then NumberNotation.record.wholeMark
      else "." ++ d.split.2).toList := by
  obtain ⟨hdigits, -, hnearest⟩ := Decimal.parts_split d
  refine ⟨_, _, none, toList_positional d, whole_split d, ?_⟩
  split
  · rename_i hempty
    rw [List.isEmpty_iff.mp hempty, List.append_nil, List.length_nil] at hnearest
    refine ⟨by simp, ?_⟩
    -- The zero behind the point counts in the digits and in the exponent.
    exact (congrArg _ (congrArg (Decimal.mk · _)
      (digitsValue_append_zeros d.split.1.toList 1))).trans
      ((Decimal.nearestPlace_mul_pow _ 1 (-1)).trans hnearest)
  · refine ⟨fun c hc => hdigits c (List.mem_append_right _ hc), ?_⟩
    rw [Option.getD_none, Int.zero_sub]
    exact hnearest

theorem numberFor_scientific {d : Decimal} (hdigits : d.digits ≠ 0) :
    NumberFor d (d.scientific "+").toList := by
  have hfirst : (Nat.toDigits 10 d.digits).take 1 ≠ [] := by
    rw [Ne, List.take_eq_nil_iff]
    exact not_or.mpr ⟨Nat.one_ne_zero, Nat.toDigits_ne_nil⟩
  have hlength := decimalLength_pos d.digits
  have hexponent : d.leadingPower - ((Nat.toDigits 10 d.digits).drop 1).length = d.exponent := by
    rw [List.length_drop]
    unfold Decimal.leadingPower
    unfold decimalLength at hlength ⊢
    omega
  refine ⟨_, _, some d.leadingPower, toList_scientific d,
    whole_of_toDigits hdigits hfirst (List.take_prefix _ _),
    fun c hc => isDigit_of_mem_toDigits (List.mem_of_mem_drop hc), ?_⟩
  rw [List.take_append_drop, digitsValue_toDigits, Option.getD_some, hexponent]

theorem numberFor_record (d : Decimal) : NumberFor d (d.write .record).toList := by
  unfold Decimal.write
  dsimp only
  split
  · exact numberFor_positional d
  · rename_i hscientific
    exact numberFor_scientific fun hzero => hscientific (by simp [hzero])

/-- The record notation of a finite number denotes it; what is not finite has none. -/
theorem denotes_writeReal (x : Binary64) :
    ∃ v : Json, Denotes (symbolsOf (writeReal x)) v ∧
      v.optional? real? = some (if x.isFinite then some x else none) := by
  unfold writeReal
  cases hfinite : x.isFinite with
  | false => exact ⟨.null, denotes_null, rfl⟩
  | true =>
    cases x with
    | nan => cases hfinite
    | signed negative place =>
      have hplace : place.val < Binary64.infinityPlace := of_decide_eq_true hfinite
      obtain ⟨whole, part, power, htext, hwhole, hpart, hnearest⟩ :=
        numberFor_record (Binary64.shortestDecimal place)
      have hwrite : symbolsOf ((Binary64.signed negative place).write .record) =
          (signedText negative (numberText whole part power)).map some := by
        unfold symbolsOf Binary64.write signedText
        dsimp only
        rw [if_neg (Nat.ne_of_lt hplace), String.toList_append, htext]
      refine ⟨.number (numeralOf negative whole part power), ?_, ?_⟩
      · rw [if_pos rfl, hwrite]
        exact denotes_number negative hwhole hpart power
      · have hvalue : (numeralOf negative whole part power).magnitude.toBinary64 negative =
            .signed negative place := by
          unfold Decimal.toBinary64 numeralOf
          rw [hnearest, Binary64.nearestPlace_shortestDecimal hplace, Binary64.atPlace_val]
        unfold optional? real? Numeral.real?
        simp only [show (numeralOf negative whole part power).negative = negative from rfl, hvalue,
          hfinite, if_true, Option.map_some]

end Telemetry.Json

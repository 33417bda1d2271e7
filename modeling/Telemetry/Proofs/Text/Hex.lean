-- SUMMARY: Hexadecimal text: a text stands for bytes exactly if it is what is written for them, up to the case of its digits.
import Telemetry.Proofs.Text.Utf8
import Telemetry.Text.Hex

/-!
# Hexadecimal text

Reading works on bytes and writing on characters. Digits of either case are single bytes, and what a
digit of either case stands for is written as its lower case, so reading undoes writing, and writing
undoes reading up to the case.
-/

namespace Telemetry.Hex

/-! ## Digits -/

/-- The character of a byte, a capital letter made small. -/
def lowerChar (byte : UInt8) : Char :=
  (Char.ofNat byte.toNat).toLower

/-- What holds of the byte of every number below 256 holds of every byte. -/
theorem forall_byte {p : UInt8 → Prop} (h : ∀ b : Fin 256, p (UInt8.ofNat b)) (byte : UInt8) : p byte :=
  UInt8.ofNat_toNat (x := byte) ▸ h ⟨byte.toNat, byte.toNat_lt⟩

/-- A byte has the value of the digit that it is in lower case. -/
theorem digitValue?_eq_some_iff {byte : UInt8} {n : Nat} (hn : n < 16) :
    digitValue? byte = some n ↔ lowerChar byte = digit n := by
  have h : ∀ byte, ∀ n : Fin 16, digitValue? byte = some n.val ↔ lowerChar byte = digit n :=
    forall_byte (by decide +kernel)
  exact h byte ⟨n, hn⟩

theorem lt_of_digitValue? {byte : UInt8} {n : Nat} (h : digitValue? byte = some n) :
    n < 16 ∧ byte.toNat < 0x80 := by
  have hlt : ∀ byte, ∀ n ∈ digitValue? byte, n < 16 ∧ byte.toNat < 0x80 :=
    forall_byte (by decide +kernel)
  exact hlt byte n h

theorem toLower_digit : ∀ n : Fin 16, (digit n).toLower = digit n := by
  decide

/-- No letter beyond the common alphabet becomes a digit in lower case. -/
theorem toNat_lt_of_toLower_eq_digit {c : Char} {n : Nat} (hn : n < 16)
    (h : c.toLower = digit n) : c.toNat < 0x80 := by
  have hdigit : ∀ n : Fin 16, (digit n).toNat < 0x80 := by decide
  by_cases hupper : c.val ≥ 'A'.val ∧ c.val ≤ 'Z'.val
  · exact Nat.lt_of_le_of_lt (UInt32.le_iff_toNat_le.mp hupper.2) (by decide)
  · have hsame : c.toLower = c := by
      unfold Char.toLower
      exact dif_neg hupper
    rw [← hsame, h]
    exact hdigit ⟨n, hn⟩

/-! ## Pairs of digits -/

theorem halves_eq_iff (byte : UInt8) {m n : Nat} (hm : m < 16) (hn : n < 16) :
    byte.toNat / 16 = m ∧ byte.toNat % 16 = n ↔ byte = UInt8.ofNat (m * 16 + n) := by
  rw [← UInt8.toNat_inj, Utf8.toNat_ofNat_of_lt (by omega)]
  omega

/-- A pair of digits is written for a byte if the digits are the halves of the byte. -/
theorem map_lowerChar_eq_iff {high low byte : UInt8} {rest bytes : List UInt8} :
    (high :: low :: rest).map lowerChar = (byte :: bytes).flatMap encodeByte ↔
      digitValue? high = some (byte.toNat / 16) ∧ digitValue? low = some (byte.toNat % 16) ∧
        rest.map lowerChar = bytes.flatMap encodeByte := by
  have hlt := byte.toNat_lt
  rw [digitValue?_eq_some_iff (by omega), digitValue?_eq_some_iff (by omega)]
  simp [encodeByte]

theorem map_lowerChar_ne_nil {high low : UInt8} {rest : List UInt8} :
    (high :: low :: rest).map lowerChar ≠ ([] : List UInt8).flatMap encodeByte :=
  List.cons_ne_nil _ _

theorem map_eq_ok_iff {ε α β : Type} {f : α → β} {result : Except ε α} {b : β} :
    result.map f = .ok b ↔ ∃ a, result = .ok a ∧ f a = b := by
  cases result <;> simp [Except.map]

theorem eq_nil_of_length_even {text : List UInt8}
    (hshort : ∀ high low rest, text = high :: low :: rest → False) (heven : text.length % 2 = 0) :
    text = [] := by
  match text, hshort, heven with
  | [], _, _ => rfl
  | [_], _, heven => cases heven
  | high :: low :: rest, hshort, _ => exact (hshort high low rest rfl).elim

/-- Pairs of digits stand for bytes if these are written as the same pairs in lower case. -/
theorem decodePairs_eq_ok_iff {text bytes : List UInt8} (heven : text.length % 2 = 0)
    (position : Nat) :
    decodePairs text position = .ok bytes ↔ text.map lowerChar = bytes.flatMap encodeByte := by
  fun_induction decodePairs text position generalizing bytes with
  | case1 high low rest position hhigh =>
    cases bytes with
    | nil => exact ⟨(nomatch ·), fun h => absurd h map_lowerChar_ne_nil⟩
    | cons byte bytes =>
      rw [map_lowerChar_eq_iff, hhigh]
      exact ⟨(nomatch ·), (nomatch ·.1)⟩
  | case2 high low rest position n hlow hhigh =>
    cases bytes with
    | nil => exact ⟨(nomatch ·), fun h => absurd h map_lowerChar_ne_nil⟩
    | cons byte bytes =>
      rw [map_lowerChar_eq_iff, hlow]
      exact ⟨(nomatch ·), (nomatch ·.2.1)⟩
  | case3 high low rest position m n hn hm ih =>
    have hrest : rest.length % 2 = 0 := by
      simp only [List.length_cons] at heven
      omega
    rw [map_eq_ok_iff]
    cases bytes with
    | nil => exact ⟨fun ⟨_, _, h⟩ => (nomatch h), fun h => absurd h map_lowerChar_ne_nil⟩
    | cons byte bytes =>
      have hbyte := halves_eq_iff byte (lt_of_digitValue? hm).1 (lt_of_digitValue? hn).1
      rw [map_lowerChar_eq_iff, hm, hn, Option.some.injEq, Option.some.injEq, ← ih hrest]
      constructor
      · rintro ⟨others, hothers, h⟩
        obtain ⟨rfl, rfl⟩ := List.cons.inj h
        exact ⟨(hbyte.mpr rfl).1.symm, (hbyte.mpr rfl).2.symm, hothers⟩
      · rintro ⟨hhigh, hlow, hothers⟩
        exact ⟨bytes, hothers, by rw [hbyte.mp ⟨hhigh.symm, hlow.symm⟩]⟩
  | case4 text position hshort =>
    have hnil : text = [] := eq_nil_of_length_even hshort heven
    subst hnil
    cases bytes with
    | nil => exact ⟨fun _ => rfl, fun _ => rfl⟩
    | cons byte bytes => exact ⟨fun h => (nomatch h), fun h => (nomatch h)⟩

/-! ## Texts of single bytes -/

theorem utf8EncodeChar_of_lt {c : Char} (h : c.toNat < 0x80) :
    String.utf8EncodeChar c = [UInt8.ofNat c.toNat] := by
  unfold String.utf8EncodeChar
  exact if_pos (Nat.le_of_lt_succ h)

theorem symbols_of_lt {bytes : List UInt8} (h : ∀ b ∈ bytes, b.toNat < 0x80) :
    Utf8.symbols bytes = bytes.map fun b => some (Char.ofNat b.toNat) := by
  have honto : ∀ acc, Utf8.symbolsOnto acc bytes =
      acc.reverse ++ bytes.map fun b => some (Char.ofNat b.toNat) := by
    induction bytes with
    | nil =>
      intro acc
      rw [Utf8.symbolsOnto, List.map_nil, List.append_nil]
    | cons b bytes ih =>
      intro acc
      rw [Utf8.symbolsOnto, Utf8.next_of_one (h b List.mem_cons_self),
        ih (fun b hb => h b (List.mem_cons_of_mem _ hb)), List.reverse_cons, List.append_assoc]
      rfl
  exact honto []

/-- A text whose bytes are all below 128 has them as its characters. -/
theorem toList_of_toUTF8_lt {text : String} (h : ∀ b ∈ text.toUTF8.toList, b.toNat < 0x80) :
    text.toList = text.toUTF8.toList.map fun b => Char.ofNat b.toNat := by
  have hsymbols : (text.toUTF8.toList.map fun b => Char.ofNat b.toNat).map some =
      text.toList.map some := by
    rw [← Utf8.symbols_toUTF8 text, symbols_of_lt h, List.map_map]
    rfl
  exact ((List.map_inj_right fun _ _ => Option.some.inj).mp hsymbols).symm

/-- A text of characters below 128 has them as its bytes. -/
theorem toUTF8_of_lt {text : String} (h : ∀ c ∈ text.toList, c.toNat < 0x80) :
    text.toUTF8.toList = text.toList.map fun c => UInt8.ofNat c.toNat := by
  rw [Utf8.toList_toUTF8, List.map_eq_flatMap, List.flatMap_def, List.flatMap_def,
    List.map_congr_left fun c hc => utf8EncodeChar_of_lt (h c hc)]

/-! ## Whole texts -/

theorem length_flatMap_encodeByte (bytes : List UInt8) :
    (bytes.flatMap encodeByte).length = 2 * bytes.length := by
  induction bytes with
  | nil => rfl
  | cons byte bytes ih =>
    rw [List.flatMap_cons, List.length_append, ih, List.length_cons]
    unfold encodeByte
    rw [List.length_cons, List.length_singleton]
    omega

/-- What is written for bytes are digits. -/
theorem exists_digit_of_mem_encode {bytes : List UInt8} {c : Char}
    (h : c ∈ bytes.flatMap encodeByte) : ∃ n < 16, c = digit n := by
  obtain ⟨byte, -, hc⟩ := List.mem_flatMap.mp h
  have hlt := byte.toNat_lt
  unfold encodeByte at hc
  rcases List.mem_cons.mp hc with rfl | hc
  · exact ⟨byte.toNat / 16, by omega, rfl⟩
  · exact ⟨byte.toNat % 16, Nat.mod_lt _ (by decide), List.mem_singleton.mp hc⟩

theorem lowerChar_ofNat_toNat {c : Char} (h : c.toNat < 0x80) :
    lowerChar (UInt8.ofNat c.toNat) = c.toLower := by
  unfold lowerChar
  rw [Utf8.toNat_ofNat_of_lt (by omega), c.ofNat_toNat]

/-- The digits that are read as bytes are below 128. -/
theorem toNat_lt_of_map_lowerChar {text bytes : List UInt8}
    (h : text.map lowerChar = bytes.flatMap encodeByte) : ∀ b ∈ text, b.toNat < 0x80 := by
  intro b hb
  obtain ⟨n, hn, hdigit⟩ := exists_digit_of_mem_encode (h ▸ List.mem_map_of_mem hb)
  exact (lt_of_digitValue? ((digitValue?_eq_some_iff hn).mpr hdigit)).2

/-- A text stands for bytes exactly if it is what is written for them, up to the case of its digits. -/
theorem decode_eq_ok_iff {text : String} {bytes : List UInt8} :
    decode text = .ok bytes ↔ text.toLower = encode bytes := by
  have hlower : text.toLower = encode bytes ↔
      text.toList.map Char.toLower = bytes.flatMap encodeByte := by
    unfold String.toLower encode
    rw [← String.toList_inj, String.toList_map, String.toList_ofList]
  rw [hlower]
  constructor
  · intro h
    unfold decode at h
    dsimp only at h
    split at h <;> rename_i hodd
    · cases h
    have hbytes := (decodePairs_eq_ok_iff (by omega) 0).mp h
    have hlt := toNat_lt_of_map_lowerChar hbytes
    rw [toList_of_toUTF8_lt hlt, List.map_map]
    exact hbytes
  · intro h
    have hlt : ∀ c ∈ text.toList, c.toNat < 0x80 := by
      intro c hc
      obtain ⟨n, hn, hdigit⟩ := exists_digit_of_mem_encode (h ▸ List.mem_map_of_mem hc)
      exact toNat_lt_of_toLower_eq_digit hn hdigit
    have hbytes := toUTF8_of_lt hlt
    have hlength : text.toUTF8.toList.length = 2 * bytes.length := by
      have := congrArg List.length h
      rw [List.length_map, length_flatMap_encodeByte] at this
      rw [hbytes, List.length_map, this]
    unfold decode
    dsimp only
    rw [if_neg (by omega), decodePairs_eq_ok_iff (by omega), hbytes, List.map_map, ← h]
    exact List.map_congr_left fun c hc => lowerChar_ofNat_toNat (hlt c hc)

/-- Written digits are in lower case. -/
theorem toLower_encode (bytes : List UInt8) : (encode bytes).toLower = encode bytes := by
  unfold String.toLower encode
  rw [← String.toList_inj, String.toList_map, String.toList_ofList, List.map_congr_left,
    List.map_id']
  intro c hc
  obtain ⟨n, hn, rfl⟩ := exists_digit_of_mem_encode hc
  exact toLower_digit ⟨n, hn⟩

/-- Written bytes read back. -/
theorem decode_encode (bytes : List UInt8) : decode (encode bytes) = .ok bytes :=
  decode_eq_ok_iff.mpr (toLower_encode bytes)

theorem encode_injective {a b : List UInt8} (h : encode a = encode b) : a = b := by
  have hread := decode_encode a
  rw [h, decode_encode] at hread
  exact (Except.ok.inj hread).symm

theorem encode_eq_empty_iff {bytes : List UInt8} : encode bytes = "" ↔ bytes = [] := by
  constructor
  · intro h
    exact encode_injective (h.trans rfl)
  · rintro rfl
    rfl

/-! ## Texts that stand for nothing -/

/-- The byte is a decimal digit, or one of the first six letters in either case. -/
def IsDigit (byte : UInt8) : Prop :=
  0x30 ≤ byte ∧ byte ≤ 0x39 ∨ 0x61 ≤ byte ∧ byte ≤ 0x66 ∨ 0x41 ≤ byte ∧ byte ≤ 0x46

instance : DecidablePred IsDigit := fun byte =>
  inferInstanceAs (Decidable (0x30 ≤ byte ∧ byte ≤ 0x39 ∨ 0x61 ≤ byte ∧ byte ≤ 0x66 ∨
    0x41 ≤ byte ∧ byte ≤ 0x46))

/-- The text has an odd number of bytes, or one that is no digit. -/
def Malformed (text : String) : Prop :=
  text.toUTF8.toList.length % 2 = 1 ∨ ∃ byte ∈ text.toUTF8.toList, ¬ IsDigit byte

theorem isDigit_iff {byte : UInt8} : IsDigit byte ↔ ∃ n, digitValue? byte = some n := by
  have h : ∀ byte, IsDigit byte ↔ (digitValue? byte).isSome = true := forall_byte (by decide +kernel)
  rw [h byte, Option.isSome_iff_exists]

theorem not_isDigit_iff {byte : UInt8} : ¬ IsDigit byte ↔ digitValue? byte = none := by
  rw [isDigit_iff, ← Option.isSome_iff_exists, Option.not_isSome_iff_eq_none]

/-- Pairs of digits are read, whatever the digits are, and nothing else is. -/
theorem exists_decodePairs_eq_ok_iff {text : List UInt8} (heven : text.length % 2 = 0)
    (position : Nat) :
    (∃ bytes, decodePairs text position = .ok bytes) ↔ ∀ byte ∈ text, IsDigit byte := by
  fun_induction decodePairs text position with
  | case1 high low rest position hhigh =>
    exact ⟨(nomatch ·), fun h => absurd (h high List.mem_cons_self) (not_isDigit_iff.mpr hhigh)⟩
  | case2 high low rest position n hlow hhigh =>
    exact ⟨(nomatch ·), fun h => absurd (h low (by simp)) (not_isDigit_iff.mpr hlow)⟩
  | case3 high low rest position m n hn hm ih =>
    have hrest : rest.length % 2 = 0 := by
      simp only [List.length_cons] at heven
      omega
    rw [List.forall_mem_cons, List.forall_mem_cons, ← ih hrest]
    constructor
    · rintro ⟨bytes, h⟩
      obtain ⟨others, hothers, -⟩ := map_eq_ok_iff.mp h
      exact ⟨isDigit_iff.mpr ⟨m, hm⟩, isDigit_iff.mpr ⟨n, hn⟩, others, hothers⟩
    · rintro ⟨-, -, others, hothers⟩
      exact ⟨_, map_eq_ok_iff.mpr ⟨others, hothers, rfl⟩⟩
  | case4 text position hshort =>
    have hnil : text = [] := eq_nil_of_length_even hshort heven
    subst hnil
    exact ⟨fun _ => List.forall_mem_nil _, fun _ => ⟨[], rfl⟩⟩

theorem exists_decode_eq_ok_iff {text : String} :
    (∃ bytes, decode text = .ok bytes) ↔ ¬ Malformed text := by
  unfold Malformed
  by_cases hodd : text.toUTF8.toList.length % 2 = 1
  · have hdecode : decode text = .error .oddLength := if_pos hodd
    rw [hdecode]
    exact iff_of_false (fun ⟨_, h⟩ => nomatch h) fun h => h (.inl hodd)
  · have hdecode : decode text = decodePairs text.toUTF8.toList 0 := if_neg hodd
    rw [hdecode, exists_decodePairs_eq_ok_iff (by omega), not_or, not_exists]
    simp only [not_and, Decidable.not_not]
    exact (and_iff_right hodd).symm

/-- A text is refused exactly if it is malformed. -/
theorem exists_decode_eq_error_iff {text : String} :
    (∃ fault, decode text = .error fault) ↔ Malformed text := by
  have hok : (∃ bytes, decode text = .ok bytes) ↔ ¬ Malformed text := exists_decode_eq_ok_iff
  cases hdecode : decode text with
  | ok bytes =>
    exact iff_of_false (fun ⟨_, h⟩ => nomatch h) (hok.mp ⟨bytes, hdecode⟩)
  | error fault =>
    refine iff_of_true ⟨fault, rfl⟩ (Classical.byContradiction fun hwell => ?_)
    obtain ⟨bytes, h⟩ := hok.mpr hwell
    exact nomatch hdecode.symm.trans h

end Telemetry.Hex

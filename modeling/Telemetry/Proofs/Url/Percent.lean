-- SUMMARY: Percent-encoding as a map of characters, and what a decoder that leaves some bytes alone makes of it.
import Mathlib
import Telemetry.Proofs.Text.Utf8
import Telemetry.Url.Percent

/-!
# Laws of percent-encoding

A text is encoded character by character: some characters are replaced by the escapes of their bytes. A
decoder sees the bytes of the encoded text and may leave the escapes of some bytes alone, so what it gives
is the same text with fewer characters escaped. Texts can thus be followed through several passes of
decoding by the set of the characters that are still escaped.
-/

namespace Telemetry.Url

/-! ## Escapes -/

/-- The escapes of the bytes of a character. -/
def escapes (c : Char) : List Char :=
  (String.utf8EncodeChar c).flatMap percentByte

/-- The text with the characters escaped that `p` holds of. -/
def escape (p : Char → Bool) (text : List Char) : List Char :=
  text.flatMap fun c => if p c then escapes c else [c]

/-- The bytes of a text. -/
def bytes (text : List Char) : List UInt8 :=
  text.flatMap String.utf8EncodeChar

@[simp] theorem bytes_nil : bytes [] = [] := rfl

theorem bytes_cons (c : Char) (text : List Char) :
    bytes (c :: text) = String.utf8EncodeChar c ++ bytes text :=
  List.flatMap_cons

theorem bytes_append (xs ys : List Char) : bytes (xs ++ ys) = bytes xs ++ bytes ys :=
  List.flatMap_append

theorem encode_eq_bytes (text : String) : Utf8.encode text = bytes text.toList :=
  Utf8.toList_toUTF8 text

theorem symbols_bytes (text : List Char) : Utf8.symbols (bytes text) = text.map some :=
  Utf8.symbolsOnto_flatMap text []

theorem bytes_injective : Function.Injective bytes := by
  intro xs ys h
  have hsymbols := congrArg Utf8.symbols h
  rw [symbols_bytes, symbols_bytes] at hsymbols
  exact (List.map_inj_right fun _ _ => Option.some.inj).mp hsymbols

/-- The bytes of a text are read as the text. -/
theorem decodeLossy_bytes (text : List Char) : Utf8.decodeLossy (bytes text) = String.ofList text := by
  simp [Utf8.decodeLossy, symbols_bytes]

theorem escape_cons (p : Char → Bool) (c : Char) (text : List Char) :
    escape p (c :: text) = (if p c then escapes c else [c]) ++ escape p text :=
  List.flatMap_cons

theorem escape_of_forall {p : Char → Bool} {text : List Char} (h : ∀ c ∈ text, p c = false) :
    escape p text = text := by
  induction text with
  | nil => rfl
  | cons c text ih =>
    obtain ⟨hc, htext⟩ := List.forall_mem_cons.mp h
    simp [escape_cons, hc, ih htext]

theorem encodePart_eq (part : Part) (text : List Char) :
    encodePart part text = String.ofList (escape part.encodes text) := by
  unfold encodePart escape encodeChar escapes
  simp only [Utf8.toList_toUTF8, Char.toString_eq_singleton, String.toList_singleton,
    List.flatMap_singleton]

/-- An escaped text is made of characters that are not escaped and of the escapes themselves. -/
theorem of_mem_escape {p : Char → Bool} {x : Char} {text : List Char} (h : x ∈ escape p text) :
    x ∈ text ∧ p x = false ∨ x = '%' ∨ ∃ n : Fin 16, x = (Hex.digit n).toUpper := by
  obtain ⟨c, hmem, hc⟩ := List.mem_flatMap.mp h
  split at hc
  · obtain ⟨byte, -, hbyte⟩ := List.mem_flatMap.mp hc
    have hlt := byte.toNat_lt
    simp only [percentByte, Hex.encodeByte, List.map_cons, List.map_nil, List.mem_cons, List.not_mem_nil,
      or_false] at hbyte
    obtain rfl | rfl | rfl := hbyte
    · exact .inr (.inl rfl)
    · exact .inr (.inr ⟨⟨byte.toNat / 16, by omega⟩, rfl⟩)
    · exact .inr (.inr ⟨⟨byte.toNat % 16, by omega⟩, rfl⟩)
  next hplain =>
    obtain rfl := List.mem_singleton.mp hc
    exact .inl ⟨hmem, by simpa using hplain⟩

/-- Of the characters that are escaped, only the percent sign and the digits are left. -/
theorem not_mem_escape {p : Char → Bool} {x : Char} (hp : p x = true)
    (hx : x ≠ '%' ∧ ∀ n : Fin 16, x ≠ (Hex.digit n).toUpper) (text : List Char) :
    x ∉ escape p text := by
  intro hmem
  obtain ⟨-, hplain⟩ | hpercent | ⟨n, hdigit⟩ := of_mem_escape hmem
  · rw [hp] at hplain
    cases hplain
  · exact hx.1 hpercent
  · exact hx.2 n hdigit

/-! ## Encoded parts -/

/-- Nothing in the text is left to encode. -/
def IsEncoded (part : Part) (text : String) : Prop :=
  ∀ c ∈ text.toList, part.encodes c = false

theorem isEncoded_empty (part : Part) : IsEncoded part "" := by
  simp [IsEncoded]

/-- The escapes themselves are not encoded, but for those that are added as a segment of their own. -/
theorem isEncoded_encodePart {part : Part} (hpart : part ≠ .segment) (text : List Char) :
    IsEncoded part (encodePart part text) := by
  have hpercent : part.encodes '%' = false := by cases part <;> first | rfl | exact absurd rfl hpart
  have hdigit : ∀ n : Fin 16, part.encodes (Hex.digit n).toUpper = false := by
    cases part <;> decide
  intro c hc
  rw [encodePart_eq, String.toList_ofList] at hc
  obtain ⟨-, hplain⟩ | rfl | ⟨n, rfl⟩ := of_mem_escape hc
  · exact hplain
  · exact hpercent
  · exact hdigit n

theorem isEncoded_of_mem_map {part : Part} (hpart : part ≠ .segment) (text : Option (List Char)) :
    ∀ t ∈ text.map (encodePart part), IsEncoded part t := by
  intro t ht
  obtain ⟨raw, -, rfl⟩ := Option.map_eq_some_iff.mp ht
  exact isEncoded_encodePart hpart raw

theorem IsEncoded.encodePart_eq {part : Part} {text : String} (h : IsEncoded part text) :
    encodePart part text.toList = text := by
  rw [Url.encodePart_eq, escape_of_forall h, String.ofList_toList]

/-- The character is a printed one in ASCII. -/
def IsPrinted (c : Char) : Prop :=
  0x20 < c.toNat ∧ c.toNat < 0x7f

instance : DecidablePred IsPrinted :=
  fun _ => instDecidableAnd

theorem isPrinted_of_encodes {part : Part} {c : Char} (h : part.encodes c = false) : IsPrinted c := by
  have hspace : part.reserved.contains ' ' = true := by cases part <;> rfl
  simp only [Part.encodes, Bool.or_eq_false_iff, decide_eq_false_iff_not] at h
  obtain ⟨⟨hlow, hhigh⟩, hreserved⟩ := h
  have hne : c.toNat ≠ 0x20 := by
    intro hc
    obtain rfl : c = ' ' := Char.toNat_inj.mp hc
    rw [hspace] at hreserved
    cases hreserved
  unfold IsPrinted
  omega

theorem ne_of_encodes {part : Part} {c : Char} (h : part.encodes c = false) {mark : Char}
    (hmark : part.encodes mark = true) : c ≠ mark := by
  rintro rfl
  rw [h] at hmark
  cases hmark

theorem encodePart_ne_empty {part : Part} {text : List Char} (h : text ≠ []) :
    encodePart part text ≠ "" := by
  cases text with
  | nil => exact absurd rfl h
  | cons c text =>
    rw [encodePart_eq, escape_cons, ← String.toList_inj.ne, String.toList_ofList]
    split
    · have hne : escapes c ≠ [] := by
        obtain ⟨first, others, hbytes, -⟩ := Utf8.next_utf8EncodeChar c []
        unfold escapes percentByte
        rw [hbytes, List.flatMap_cons]
        simp
      simp [hne]
    · simp

/-! ## Digits -/

/-- The byte of a digit of an escape. -/
def digitByte (n : Nat) : UInt8 :=
  UInt8.ofNat (Hex.digit n).toUpper.toNat

theorem digitByte_fin : ∀ n : Fin 16,
    String.utf8EncodeChar (Hex.digit n).toUpper = [digitByte n] ∧
      Hex.digitValue? (digitByte n) = some n.val ∧ digitByte n ≠ 0x25 := by
  decide

theorem bytes_percentByte (byte : UInt8) :
    bytes (percentByte byte) = [0x25, digitByte (byte.toNat / 16), digitByte (byte.toNat % 16)] := by
  have hlt := byte.toNat_lt
  obtain ⟨hhigh, -⟩ := digitByte_fin ⟨byte.toNat / 16, by omega⟩
  obtain ⟨hlow, -⟩ := digitByte_fin ⟨byte.toNat % 16, by omega⟩
  have hpercent : String.utf8EncodeChar '%' = [0x25] := by decide
  simp [percentByte, Hex.encodeByte, bytes, hhigh, hlow, hpercent]

/-! ## Decoding -/

variable {keep : UInt8 → Bool}

theorem percentDecode_cons_of_ne {byte : UInt8} (h : byte ≠ 0x25) (rest : List UInt8) :
    percentDecode keep (byte :: rest) = byte :: percentDecode keep rest := by
  rw [percentDecode.eq_2]
  exact fun _ _ _ hbyte => absurd hbyte h

/-- Bytes without a percent sign are left alone. -/
theorem percentDecode_append_of_forall {plain : List UInt8} (h : ∀ byte ∈ plain, byte ≠ 0x25)
    (rest : List UInt8) : percentDecode keep (plain ++ rest) = plain ++ percentDecode keep rest := by
  induction plain with
  | nil => rfl
  | cons byte plain ih =>
    obtain ⟨hbyte, hplain⟩ := List.forall_mem_cons.mp h
    rw [List.cons_append, percentDecode_cons_of_ne hbyte, ih hplain, List.cons_append]

/-- The escape of a byte is decoded, or left alone as a whole. -/
theorem percentDecode_percentByte (byte : UInt8) (rest : List UInt8) :
    percentDecode keep (bytes (percentByte byte) ++ rest) =
      (if keep byte then bytes (percentByte byte) else [byte]) ++ percentDecode keep rest := by
  have hlt := byte.toNat_lt
  obtain ⟨-, hhigh, hhigh'⟩ := digitByte_fin ⟨byte.toNat / 16, by omega⟩
  obtain ⟨-, hlow, hlow'⟩ := digitByte_fin ⟨byte.toNat % 16, by omega⟩
  have hbyte : UInt8.ofNat (byte.toNat / 16 * 16 + byte.toNat % 16) = byte := by
    rw [Nat.div_add_mod', UInt8.ofNat_toNat]
  rw [bytes_percentByte]
  simp only [List.cons_append, List.nil_append, percentDecode, hhigh, hlow, hbyte]
  cases keep byte with
  | false => rfl
  | true => simp [percentDecode_cons_of_ne, hhigh', hlow']

/-- The escapes of bytes that the decoder treats alike. -/
theorem percentDecode_flatMap_percentByte {kept : Bool} {given : List UInt8}
    (h : ∀ byte ∈ given, keep byte = kept) (rest : List UInt8) :
    percentDecode keep (bytes (given.flatMap percentByte) ++ rest) =
      (if kept then bytes (given.flatMap percentByte) else given) ++ percentDecode keep rest := by
  induction given with
  | nil => cases kept <;> rfl
  | cons byte given ih =>
    obtain ⟨hbyte, hgiven⟩ := List.forall_mem_cons.mp h
    rw [List.flatMap_cons, bytes_append, List.append_assoc, percentDecode_percentByte, ih hgiven, hbyte]
    cases kept <;> simp

/-- Only a character of the common alphabet has bytes of it. -/
theorem toNat_of_mem_utf8EncodeChar {c : Char} {byte : UInt8} (h : byte ∈ String.utf8EncodeChar c)
    (hbyte : byte.toNat < 0x80) : byte.toNat = c.toNat := by
  have hsmall : ∀ n, n < 256 → 0x80 ≤ n → byte ≠ UInt8.ofNat n := by
    rintro n hn hle rfl
    rw [Utf8.toNat_ofNat_of_lt hn] at hbyte
    omega
  have hvalid : c.val.toNat < 0xd800 ∨ 0xdfff < c.val.toNat ∧ c.val.toNat < 0x110000 := c.valid
  unfold String.utf8EncodeChar at h
  change byte.toNat = c.val.toNat
  generalize c.val.toNat = v at h hvalid ⊢
  simp only at h
  split_ifs at h with h₁ h₂ h₃
  · rw [List.mem_singleton.mp h, Utf8.toNat_ofNat_of_lt (by omega)]
  all_goals
    simp only [List.mem_cons, List.not_mem_nil, or_false] at h
    exfalso
  · obtain h | h := h
    · exact hsmall _ (by omega) (by omega) h
    · exact hsmall _ (by omega) (by omega) h
  · obtain h | h | h := h
    all_goals exact hsmall _ (by omega) (by omega) h
  · obtain h | h | h | h := h
    all_goals exact hsmall _ (by omega) (by omega) h

theorem eq_percent_of_mem_utf8EncodeChar {c : Char} (h : 0x25 ∈ String.utf8EncodeChar c) : c = '%' :=
  Char.toNat_inj.mp (toNat_of_mem_utf8EncodeChar h (by decide)).symm

/-- A decoder turns a text with some characters escaped into the text with those of them escaped whose
    bytes it leaves alone. -/
theorem percentDecode_escape {p q : Char → Bool} (hpercent : p '%' = true)
    (hsub : ∀ c, p c = false → q c = false)
    (hkeep : ∀ c, p c = true → ∀ byte ∈ String.utf8EncodeChar c, keep byte = q c)
    (text : List Char) (rest : List UInt8) :
    percentDecode keep (bytes (escape p text) ++ rest) =
      bytes (escape q text) ++ percentDecode keep rest := by
  induction text with
  | nil => rfl
  | cons c text ih =>
    rw [escape_cons, escape_cons, bytes_append, bytes_append, List.append_assoc, List.append_assoc,
      ← ih]
    cases hp : p c with
    | true =>
      rw [if_pos rfl]
      refine (percentDecode_flatMap_percentByte (hkeep c hp) _).trans ?_
      cases q c <;> simp [escapes, bytes]
    | false =>
      rw [hsub c hp]
      refine percentDecode_append_of_forall ?_ _
      rintro byte hbyte rfl
      obtain rfl := eq_percent_of_mem_utf8EncodeChar (by simpa [bytes] using hbyte)
      rw [hpercent] at hp
      cases hp

/-- A decoder that leaves nothing alone gives back the text. -/
theorem percentDecode_escape_eq {p : Char → Bool} (hpercent : p '%' = true) (text : List Char) :
    percentDecode (fun _ => false) (bytes (escape p text)) = bytes text := by
  have hplain : escape (fun _ => false) text = text := escape_of_forall fun _ _ => rfl
  have hdecode : percentDecode (fun _ => false) (bytes (escape p text) ++ []) =
      bytes (escape (fun _ => false) text) ++ [] :=
    percentDecode_escape hpercent (fun _ _ => rfl) (fun _ _ _ _ => rfl) text []
  simpa [hplain] using hdecode

end Telemetry.Url

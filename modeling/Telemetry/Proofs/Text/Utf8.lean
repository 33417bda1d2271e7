-- SUMMARY: UTF-8 decoding of encoded text: every character comes back as its own symbol.
import Telemetry.Text.Utf8

/-!
# UTF-8 round trip

The reader takes the bytes of one character at a time. There is one case for each length of an encoded
character; what has to be shown in each is that the first bytes lie in the ranges that the reader expects
of this length.
-/

namespace Telemetry.Utf8

/-! ## Sequences by length -/

theorem between_iff {low high b : UInt8} :
    (decide (low ≤ b) && decide (b ≤ high)) = true ↔
      low.toNat ≤ b.toNat ∧ b.toNat ≤ high.toNat := by
  rw [Bool.and_eq_true, decide_eq_true_eq, decide_eq_true_eq, UInt8.le_iff_toNat_le,
    UInt8.le_iff_toNat_le]

theorem isSecondOfThree_of_bounds {a b : UInt8} (hb : 0x80 ≤ b.toNat) (hb' : b.toNat ≤ 0xbf)
    (hlow : a.toNat = 0xe0 → 0xa0 ≤ b.toNat) (hhigh : a.toNat = 0xed → b.toNat ≤ 0x9f) :
    isSecondOfThree a b = true := by
  unfold isSecondOfThree
  split
  · rename_i h
    exact between_iff.mpr ⟨hlow (h ▸ rfl), hb'⟩
  · split
    · rename_i h
      exact between_iff.mpr ⟨hb, hhigh (h ▸ rfl)⟩
    · exact between_iff.mpr ⟨hb, hb'⟩

theorem isSecondOfFour_of_bounds {a b : UInt8} (hb : 0x80 ≤ b.toNat) (hb' : b.toNat ≤ 0xbf)
    (hlow : a.toNat = 0xf0 → 0x90 ≤ b.toNat) (hhigh : a.toNat = 0xf4 → b.toNat ≤ 0x8f) :
    isSecondOfFour a b = true := by
  unfold isSecondOfFour
  split
  · rename_i h
    exact between_iff.mpr ⟨hlow (h ▸ rfl), hb'⟩
  · split
    · rename_i h
      exact between_iff.mpr ⟨hb, hhigh (h ▸ rfl)⟩
    · exact between_iff.mpr ⟨hb, hb'⟩

theorem not_lt_of_le_toNat {a : UInt8} {n : Nat} (hn : 0x80 ≤ n) (ha : n ≤ a.toNat) :
    ¬ a < 0x80 := by
  rw [UInt8.lt_iff_toNat_lt]
  exact Nat.not_lt.mpr (Nat.le_trans hn ha)

theorem not_between_of_le_toNat {low high a : UInt8} {n : Nat} (hn : high.toNat < n)
    (ha : n ≤ a.toNat) : ¬ (decide (low ≤ a) && decide (a ≤ high)) = true := by
  rw [between_iff]
  exact fun h => Nat.not_le.mpr hn (Nat.le_trans ha h.2)

theorem next_of_one {a : UInt8} (ha : a.toNat < 0x80) (rest : List UInt8) :
    next a rest = (some (Char.ofNat a.toNat), rest) :=
  if_pos (UInt8.lt_iff_toNat_lt.mpr ha)

theorem next_of_two {a b : UInt8} (ha : 0xc2 ≤ a.toNat) (ha' : a.toNat ≤ 0xdf)
    (hb : isContinuation b = true) (rest : List UInt8) :
    next a (b :: rest) = (some (Char.ofNat (a.toNat % 32 * 64 + payload b)), rest) := by
  have hfirst : (decide (0xc2 ≤ a) && decide (a ≤ 0xdf)) = true :=
    between_iff.mpr ⟨ha, ha'⟩
  unfold next
  rw [if_neg (not_lt_of_le_toNat (by decide) ha), if_pos hfirst]
  simp only [hb, if_true]

theorem next_of_three {a b c : UInt8} (ha : 0xe0 ≤ a.toNat) (ha' : a.toNat ≤ 0xef)
    (hb : isSecondOfThree a b = true) (hc : isContinuation c = true) (rest : List UInt8) :
    next a (b :: c :: rest) =
      (some (Char.ofNat (a.toNat % 16 * 4096 + payload b * 64 + payload c)), rest) := by
  have hfirst : (decide (0xe0 ≤ a) && decide (a ≤ 0xef)) = true :=
    between_iff.mpr ⟨ha, ha'⟩
  unfold next
  rw [if_neg (not_lt_of_le_toNat (by decide) ha), if_neg (not_between_of_le_toNat (by decide) ha),
    if_pos hfirst]
  simp only [hb, hc, if_true]

theorem next_of_four {a b c d : UInt8} (ha : 0xf0 ≤ a.toNat) (ha' : a.toNat ≤ 0xf4)
    (hb : isSecondOfFour a b = true) (hc : isContinuation c = true)
    (hd : isContinuation d = true) (rest : List UInt8) :
    next a (b :: c :: d :: rest) =
      (some (Char.ofNat (a.toNat % 8 * 262144 + payload b * 4096 + payload c * 64 + payload d)),
        rest) := by
  have hfirst : (decide (0xf0 ≤ a) && decide (a ≤ 0xf4)) = true :=
    between_iff.mpr ⟨ha, ha'⟩
  unfold next
  rw [if_neg (not_lt_of_le_toNat (by decide) ha), if_neg (not_between_of_le_toNat (by decide) ha),
    if_neg (not_between_of_le_toNat (by decide) ha), if_pos hfirst]
  simp only [hb, hc, hd, if_true]

/-! ## Encoded characters -/

theorem toNat_ofNat_of_lt {n : Nat} (h : n < 256) : (UInt8.ofNat n).toNat = n := by
  rw [UInt8.toNat_ofNat']
  exact Nat.mod_eq_of_lt h

theorem isContinuation_ofNat (n : Nat) :
    isContinuation (UInt8.ofNat (n % 64 + 128)) = true := by
  refine between_iff.mpr ?_
  rw [toNat_ofNat_of_lt (by omega)]
  exact ⟨Nat.le_add_left 128 (n % 64),
    Nat.add_le_add_right (Nat.le_of_lt_succ (Nat.mod_lt n (by decide))) 128⟩

theorem payload_ofNat (n : Nat) : payload (UInt8.ofNat (n % 64 + 128)) = n % 64 := by
  unfold payload
  rw [toNat_ofNat_of_lt (by omega)]
  omega

/-- The bytes of a character are read as this character, whatever follows them. -/
theorem next_utf8EncodeChar (c : Char) (rest : List UInt8) :
    ∃ first others, String.utf8EncodeChar c = first :: others ∧
      next first (others ++ rest) = (some c, rest) := by
  have hchar : ∀ n, n = c.val.toNat → Char.ofNat n = c := by
    rintro n rfl
    exact c.ofNat_toNat
  have hvalid : c.val.toNat < 0xd800 ∨ 0xdfff < c.val.toNat ∧ c.val.toNat < 0x110000 := c.valid
  unfold String.utf8EncodeChar
  generalize c.val.toNat = v at hchar hvalid
  simp only
  by_cases h₁ : v ≤ 0x7f
  · rw [if_pos h₁]
    have ha : (UInt8.ofNat v).toNat = v := toNat_ofNat_of_lt (by omega)
    refine ⟨_, _, rfl, ?_⟩
    rw [List.nil_append, next_of_one (by omega), hchar _ ha]
  rw [if_neg h₁]
  by_cases h₂ : v ≤ 0x7ff
  · rw [if_pos h₂]
    have ha : (UInt8.ofNat (v / 64 % 32 + 192)).toNat = v / 64 % 32 + 192 :=
      toNat_ofNat_of_lt (by omega)
    refine ⟨_, _, rfl, ?_⟩
    rw [List.cons_append, List.nil_append, next_of_two (by omega) (by omega)
      (isContinuation_ofNat v), payload_ofNat, hchar _ (by omega)]
  rw [if_neg h₂]
  by_cases h₃ : v ≤ 0xffff
  · rw [if_pos h₃]
    have ha : (UInt8.ofNat (v / 4096 % 16 + 224)).toNat = v / 4096 % 16 + 224 :=
      toNat_ofNat_of_lt (by omega)
    have hb : (UInt8.ofNat (v / 64 % 64 + 128)).toNat = v / 64 % 64 + 128 :=
      toNat_ofNat_of_lt (by omega)
    -- Nothing shorter would do, and the surrogates are no characters.
    have hsecond : isSecondOfThree (UInt8.ofNat (v / 4096 % 16 + 224))
        (UInt8.ofNat (v / 64 % 64 + 128)) = true :=
      isSecondOfThree_of_bounds (by omega) (by omega) (by omega) (by omega)
    refine ⟨_, _, rfl, ?_⟩
    rw [List.cons_append, List.cons_append, List.nil_append, next_of_three (by omega) (by omega)
      hsecond (isContinuation_ofNat v), payload_ofNat, payload_ofNat, hchar _ (by omega)]
  · rw [if_neg h₃]
    have ha : (UInt8.ofNat (v / 262144 % 8 + 240)).toNat = v / 262144 % 8 + 240 :=
      toNat_ofNat_of_lt (by omega)
    have hb : (UInt8.ofNat (v / 4096 % 64 + 128)).toNat = v / 4096 % 64 + 128 :=
      toNat_ofNat_of_lt (by omega)
    have hsecond : isSecondOfFour (UInt8.ofNat (v / 262144 % 8 + 240))
        (UInt8.ofNat (v / 4096 % 64 + 128)) = true :=
      isSecondOfFour_of_bounds (by omega) (by omega) (by omega) (by omega)
    refine ⟨_, _, rfl, ?_⟩
    rw [List.cons_append, List.cons_append, List.cons_append, List.nil_append,
      next_of_four (by omega) (by omega) hsecond (isContinuation_ofNat (v / 64))
        (isContinuation_ofNat v), payload_ofNat, payload_ofNat, payload_ofNat,
      hchar _ (by omega)]

/-! ## Encoded texts -/

theorem symbolsOnto_flatMap (chars : List Char) (acc : List (Option Char)) :
    symbolsOnto acc (chars.flatMap String.utf8EncodeChar) = acc.reverse ++ chars.map some := by
  induction chars generalizing acc with
  | nil =>
    rw [List.flatMap_nil, symbolsOnto, List.map_nil, List.append_nil]
  | cons c chars ih =>
    obtain ⟨first, others, hbytes, hnext⟩ :=
      next_utf8EncodeChar c (chars.flatMap String.utf8EncodeChar)
    rw [List.flatMap_cons, hbytes, List.cons_append, symbolsOnto, hnext, ih, List.reverse_cons,
      List.append_assoc, List.map_cons, List.singleton_append]

theorem toList_loop (bytes : ByteArray) (i : Nat) (acc : List UInt8) :
    ByteArray.toList.loop bytes i acc = acc.reverse ++ bytes.data.toList.drop i := by
  fun_induction ByteArray.toList.loop bytes i acc with
  | case1 i acc h ih =>
    have hget : bytes.get! i = bytes.data.toList[i] := getElem!_pos bytes.data i h
    rw [ih, List.reverse_cons, List.append_assoc, hget, List.singleton_append,
      ← List.drop_eq_getElem_cons]
  | case2 i acc h =>
    rw [List.drop_of_length_le (Nat.not_lt.mp h), List.append_nil]

theorem toList_toByteArray (bytes : List UInt8) : bytes.toByteArray.toList = bytes := by
  unfold ByteArray.toList
  rw [toList_loop, List.toList_data_toByteArray]
  rfl

theorem toList_toUTF8 (text : String) :
    text.toUTF8.toList = text.toList.flatMap String.utf8EncodeChar := by
  rw [String.toUTF8_eq_toByteArray, ← String.utf8Encode_toList]
  exact toList_toByteArray _

/-- The symbols of an encoded text are its characters. -/
theorem symbols_toUTF8 (text : String) : symbols text.toUTF8.toList = text.toList.map some := by
  rw [toList_toUTF8]
  exact symbolsOnto_flatMap text.toList []

/-- A text has a byte or more for each character. -/
theorem length_le_length_encode (text : String) : text.length ≤ (encode text).length := by
  unfold encode
  rw [toList_toUTF8, ← String.length_toList]
  induction text.toList with
  | nil => exact Nat.le_refl 0
  | cons c chars ih =>
    obtain ⟨first, others, hbytes, -⟩ := next_utf8EncodeChar c []
    simp only [List.flatMap_cons, hbytes, List.length_append, List.length_cons]
    omega

/-- Texts are told apart by their bytes. -/
theorem toList_toUTF8_inj {a b : String} : a.toUTF8.toList = b.toUTF8.toList ↔ a = b := by
  constructor
  · intro h
    have hsymbols := symbols_toUTF8 a
    rw [h, symbols_toUTF8] at hsymbols
    exact String.toList_inj.mp
      ((List.map_inj_right fun _ _ => Option.some.inj).mp hsymbols).symm
  · rintro rfl
    rfl

end Telemetry.Utf8

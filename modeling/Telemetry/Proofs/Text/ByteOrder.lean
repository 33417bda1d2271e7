-- SUMMARY: The order of texts is the order of their UTF-8 bytes.
import Mathlib
import Telemetry.Proofs.Text.Utf8

/-!
# The order of bytes

Texts are compared character by character, and their bytes one by one. The two comparisons agree: a longer
sequence begins with a larger byte, and of two sequences of one length the digits of the character are
compared from the highest on.
-/

namespace Telemetry.Utf8

/-! ## Characters -/

theorem ofNat_cons_lt {a b : Nat} {xs ys : List UInt8} (hb : b < 256) (h : a < b ∨ a = b ∧ xs < ys) :
    UInt8.ofNat a :: xs < UInt8.ofNat b :: ys := by
  rw [List.cons_lt_cons_iff]
  rcases h with hlt | ⟨rfl, hrest⟩
  · refine .inl (UInt8.lt_iff_toNat_lt.mpr ?_)
    rwa [toNat_ofNat_of_lt (Nat.lt_trans hlt hb), toNat_ofNat_of_lt hb]
  · exact .inr ⟨rfl, hrest⟩

/-- The larger of two numbers has a larger part above some digit, or the same. -/
theorem div_lt_or_eq {v w : Nat} (h : v < w) (k : Nat) : v / k < w / k ∨ v / k = w / k :=
  Nat.lt_or_eq_of_le (Nat.div_le_div_right h.le)

/-- The bytes of the smaller character come first, whatever follows them. -/
theorem utf8EncodeChar_append_lt {c d : Char} (h : c < d) (xs ys : List UInt8) :
    String.utf8EncodeChar c ++ xs < String.utf8EncodeChar d ++ ys := by
  have hlt : c.val.toNat < d.val.toNat := UInt32.lt_iff_toNat_lt.mp h
  have hvalid : d.val.toNat < 0xd800 ∨ 0xdfff < d.val.toNat ∧ d.val.toNat < 0x110000 := d.valid
  unfold String.utf8EncodeChar
  generalize c.val.toNat = v at hlt
  generalize d.val.toNat = w at hlt hvalid
  simp only
  by_cases hv₁ : v ≤ 0x7f
  · rw [if_pos hv₁]
    -- A longer sequence begins with a larger byte; with one of the same length the digits decide.
    split_ifs
    · exact ofNat_cons_lt (by omega) (.inl hlt)
    · exact ofNat_cons_lt (by omega) (.inl (by omega))
    · exact ofNat_cons_lt (by omega) (.inl (by omega))
    · exact ofNat_cons_lt (by omega) (.inl (by omega))
  rw [if_neg hv₁, if_neg (by omega : ¬ w ≤ 0x7f)]
  by_cases hv₂ : v ≤ 0x7ff
  · rw [if_pos hv₂]
    split_ifs
    · refine ofNat_cons_lt (by omega) ?_
      rcases div_lt_or_eq hlt 64 with hfirst | hfirst
      · exact .inl (by omega)
      · exact .inr ⟨by omega, ofNat_cons_lt (by omega) (.inl (by omega))⟩
    · exact ofNat_cons_lt (by omega) (.inl (by omega))
    · exact ofNat_cons_lt (by omega) (.inl (by omega))
  rw [if_neg hv₂, if_neg (by omega : ¬ w ≤ 0x7ff)]
  by_cases hv₃ : v ≤ 0xffff
  · rw [if_pos hv₃]
    split_ifs
    · refine ofNat_cons_lt (by omega) ?_
      rcases div_lt_or_eq hlt 4096 with hfirst | hfirst
      · exact .inl (by omega)
      refine .inr ⟨by omega, ofNat_cons_lt (by omega) ?_⟩
      rcases div_lt_or_eq hlt 64 with hsecond | hsecond
      · exact .inl (by omega)
      · exact .inr ⟨by omega, ofNat_cons_lt (by omega) (.inl (by omega))⟩
    · exact ofNat_cons_lt (by omega) (.inl (by omega))
  rw [if_neg hv₃, if_neg (by omega : ¬ w ≤ 0xffff)]
  refine ofNat_cons_lt (by omega) ?_
  rcases div_lt_or_eq hlt 262144 with hfirst | hfirst
  · exact .inl (by omega)
  refine .inr ⟨by omega, ofNat_cons_lt (by omega) ?_⟩
  rcases div_lt_or_eq hlt 4096 with hsecond | hsecond
  · exact .inl (by omega)
  refine .inr ⟨by omega, ofNat_cons_lt (by omega) ?_⟩
  rcases div_lt_or_eq hlt 64 with hthird | hthird
  · exact .inl (by omega)
  · exact .inr ⟨by omega, ofNat_cons_lt (by omega) (.inl (by omega))⟩

/-! ## Texts -/

theorem flatMap_utf8EncodeChar_lt {cs ds : List Char} (h : cs < ds) :
    cs.flatMap String.utf8EncodeChar < ds.flatMap String.utf8EncodeChar := by
  induction cs generalizing ds with
  | nil =>
    cases ds with
    | nil => cases h
    | cons d ds =>
      obtain ⟨first, others, hbytes, -⟩ := next_utf8EncodeChar d []
      rw [List.flatMap_cons, hbytes]
      exact .nil
  | cons c cs ih =>
    cases ds with
    | nil => cases h
    | cons d ds =>
      rw [List.flatMap_cons, List.flatMap_cons]
      rcases List.cons_lt_cons_iff.mp h with hlt | ⟨rfl, hrest⟩
      · exact utf8EncodeChar_append_lt hlt _ _
      · exact List.append_left_lt (ih hrest)

/-- Texts stand in the order of their bytes. -/
theorem encode_lt_encode_iff {a b : String} : encode a < encode b ↔ a < b := by
  have hmono : ∀ {a b : String}, a < b → encode a < encode b := by
    intro a b h
    unfold encode
    rw [toList_toUTF8, toList_toUTF8]
    exact flatMap_utf8EncodeChar_lt (String.lt_iff.mp h)
  refine ⟨fun h => ?_, hmono⟩
  by_contra hnot
  rcases Decidable.em (b < a) with hlt | hge
  · exact List.lt_asymm h (hmono hlt)
  · obtain rfl := String.le_antisymm (String.not_lt.mp hge) (String.not_lt.mp hnot)
    exact List.lt_irrefl _ h

end Telemetry.Utf8

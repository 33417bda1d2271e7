-- SUMMARY: Values as text: what is written for a value reads back as it under its own kind.
import Telemetry.Metric.Value
import Telemetry.Proofs.Number.Integers
import Telemetry.Proofs.Number.Reals

/-!
# Values as text

Integers and binary64 numbers are read back from what is written for them, so values are too. No value
is written as the empty text, for that reads as none.
-/

namespace Telemetry.Value

/-- The text of a value reads back as it. -/
theorem read_text (v : Value) : read v.kind v.text = .ok v := by
  cases v with
  | counter count =>
    unfold read kind text
    simp only [readInt64_toString]
  | gauge level =>
    unfold read kind text
    simp only [readReal_text]

theorem read_empty (kind : Kind) (v : Value) : read kind "" ≠ .ok v := by
  cases kind <;> exact fun h => nomatch h

theorem text_ne_empty (v : Value) : v.text ≠ "" := by
  intro h
  have hread := read_text v
  rw [h] at hread
  exact read_empty v.kind v hread

theorem kind_of_read {kind : Kind} {raw : String} {v : Value} (h : read kind raw = .ok v) :
    v.kind = kind := by
  unfold read at h
  cases kind with
  | counter =>
    dsimp only at h
    split at h
    · cases h
      rfl
    · cases h
  | gauge =>
    dsimp only at h
    split at h
    · cases h
      rfl
    · cases h

/-! ## Characters -/

/-- The character may stand in the text of a value. -/
def isTextChar (c : Char) : Bool :=
  c.isAlphanum || c = '-' || c = '.'

theorem isTextChar_of_isDigit {c : Char} (h : c.isDigit = true) : isTextChar c = true := by
  simp [isTextChar, Char.isAlphanum, h]

theorem isTextChar_toString (i : Int) : ∀ c ∈ (toString i).toList, isTextChar c = true := by
  have hdigits : ∀ n : Nat, ∀ c ∈ n.repr.toList, isTextChar c = true := by
    intro n c hc
    rw [Nat.toList_repr] at hc
    exact isTextChar_of_isDigit (isDigit_of_mem_toDigits hc)
  cases i with
  | ofNat n => exact hdigits n
  | negSucc n =>
    have htext : (toString (Int.negSucc n)).toList = '-' :: (n + 1).repr.toList :=
      String.toList_append
    rw [htext]
    exact List.forall_mem_cons.mpr ⟨rfl, hdigits (n + 1)⟩

theorem isTextChar_write_plain (d : Decimal) : ∀ c ∈ (d.write .plain).toList, isTextChar c = true := by
  have hdigits := d.parts_split.isDigit
  intro c hc
  rw [Decimal.toList_write_plain] at hc
  obtain hc | hc := List.mem_append.mp hc
  · exact isTextChar_of_isDigit (hdigits c (List.mem_append_left _ hc))
  · split at hc
    · cases hc
    · obtain rfl | hc := List.mem_cons.mp hc
      · rfl
      · exact isTextChar_of_isDigit (hdigits c (List.mem_append_right _ hc))

/-- A value is written with letters, digits, signs and points. -/
theorem isTextChar_text (v : Value) : ∀ c ∈ v.text.toList, isTextChar c = true := by
  have hinf : ∀ c ∈ "inf".toList, isTextChar c = true := by simp [isTextChar]
  have hnan : ∀ c ∈ "NaN".toList, isTextChar c = true := by simp [isTextChar]
  have hsign : ∀ negative, ∀ c ∈ (Binary64.signText negative).toList, isTextChar c = true := by
    intro negative
    cases negative <;> simp [toList_signText, isTextChar]
  cases v with
  | counter count => exact isTextChar_toString count.toInt
  | gauge level =>
    cases level with
    | nan => exact hnan
    | signed negative place =>
      have htext : (Value.gauge (.signed negative place)).text = Binary64.signText negative ++
          if place.val = Binary64.infinityPlace then "inf"
          else (Binary64.shortestDecimal place).write .plain := rfl
      rw [htext, String.toList_append]
      refine List.forall_mem_append.mpr ⟨hsign negative, ?_⟩
      split
      · exact hinf
      · exact isTextChar_write_plain _

/-- A value is more than points. -/
theorem read_dots {kind : Kind} {v : Value} : read kind "." ≠ .ok v ∧ read kind ".." ≠ .ok v := by
  cases kind <;> exact ⟨(nomatch ·), (nomatch ·)⟩

/-- Values of one kind with the same text are the same. -/
theorem eq_of_text_eq {v w : Value} (hkind : v.kind = w.kind) (htext : v.text = w.text) : v = w := by
  have hread := read_text v
  rw [hkind, htext, read_text w] at hread
  exact (Except.ok.inj hread).symm

end Telemetry.Value

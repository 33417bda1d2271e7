-- SUMMARY: The canonical text of a metric: it tells metrics apart by name, kind and the written value, whatever their names are.
import Mathlib
import Telemetry.Metric.Basic
import Telemetry.Proofs.Number.Wholes

/-!
# Canonical texts

The canonical text joins name, kind and value by colons. A name may hold colons itself, but the text of
a kind or a value never does, so the last two colons of the text are the ones that join it. The values of
gauges are written with six places, so that levels with the same six places are not told apart.
-/

namespace Telemetry

/-! ## Texts without colons -/

theorem not_mem_toDigits {n : Nat} {c : Char} (hc : c.isDigit = false) : c ∉ Nat.toDigits 10 n := by
  intro h
  rw [isDigit_of_mem_toDigits h] at hc
  cases hc

theorem colon_not_mem_signText (negative : Bool) : ':' ∉ (Binary64.signText negative).toList := by
  cases negative <;> decide

theorem colon_not_mem_fixed (places : Nat) (x : Binary64) : ':' ∉ (x.fixed places).toList := by
  have hdigits : ∀ n : Nat, ':' ∉ (toString n).toList := by
    intro n
    rw [toList_toString_nat]
    exact not_mem_toDigits rfl
  have hzeros : ∀ count, ':' ∉ (zeros count).toList := by
    intro count h
    rw [toList_zeros] at h
    cases List.eq_of_mem_replicate h
  cases x with
  | nan =>
    have hnan : ':' ∉ "NaN".toList := by decide
    exact hnan
  | signed negative place =>
    unfold Binary64.fixed
    rw [String.toList_append, List.mem_append, not_or]
    refine ⟨colon_not_mem_signText negative, ?_⟩
    split
    · decide
    · dsimp only
      split
      · exact hdigits _
      · simp only [String.toList_append, List.mem_append, not_or]
        exact ⟨⟨⟨hdigits _, by decide⟩, hzeros _⟩, hdigits _⟩

theorem colon_not_mem_kindName (k : Kind) : ':' ∉ k.name.toList := by
  cases k <;> decide

/-! ## The value that is signed -/

/-- The text of a value in the canonical text. -/
def Value.signedText : Value → String
  | counter count => toString count.toInt
  | gauge level => level.fixed 6

theorem Value.colon_not_mem_signedText (v : Value) : ':' ∉ v.signedText.toList := by
  cases v with
  | counter count =>
    unfold signedText
    rw [toList_toString_int, List.mem_append, not_or]
    exact ⟨colon_not_mem_signText _, not_mem_toDigits rfl⟩
  | gauge level => exact colon_not_mem_fixed 6 level

/-- Counters are told apart by what is signed of them. -/
theorem Value.signedText_counter_inj {a b : Int64} :
    (counter a).signedText = (counter b).signedText ↔ a = b := by
  constructor
  · intro h
    have htext : toString a.toInt = toString b.toInt := h
    have hread := readInt64_toString a
    rw [htext, readInt64_toString] at hread
    exact (Except.ok.inj hread).symm
  · rintro rfl
    rfl

/-- Values that have the same part in a canonical text: equal counts, or levels with the same six
    places. -/
def Value.SignedAlike : Value → Value → Prop
  | counter a, counter b => a.toInt = b.toInt
  | gauge x, gauge y => x.fixed 6 = y.fixed 6
  | _, _ => False

theorem Value.signedText_eq_iff {v v' : Value} (hkind : v.kind = v'.kind) :
    v.signedText = v'.signedText ↔ v.SignedAlike v' := by
  cases v with
  | counter count =>
    cases v' with
    | counter count' => rw [signedText_counter_inj, SignedAlike, Int64.toInt_inj]
    | gauge level => cases hkind
  | gauge level =>
    cases v' with
    | counter count => cases hkind
    | gauge level' => exact Iff.rfl

/-! ## Canonical texts -/

namespace Metric

theorem toList_canonicalText (m : Metric) :
    m.canonicalText.toList =
      (m.name.toList ++ ':' :: m.kind.name.toList) ++ ':' :: m.value.signedText.toList := by
  obtain ⟨name, value⟩ := m
  have hcounter : ":counter:".toList = ':' :: (Kind.counter.name.toList ++ [':']) := rfl
  have hgauge : ":gauge:".toList = ':' :: (Kind.gauge.name.toList ++ [':']) := rfl
  cases value with
  | counter count =>
    unfold canonicalText
    simp only [String.toList_append, hcounter, List.append_assoc, List.cons_append, List.nil_append]
    rfl
  | gauge level =>
    unfold canonicalText
    simp only [String.toList_append, hgauge, List.append_assoc, List.cons_append, List.nil_append]
    rfl

/-- A list is cut at its last separator in one way only. -/
theorem append_cons_inj_of_not_mem {α : Type} {x : α} {before before' after after' : List α}
    (hx : x ∉ after) (hx' : x ∉ after') (h : before ++ x :: after = before' ++ x :: after') :
    before = before' ∧ after = after' := by
  rcases List.append_eq_append_iff.mp h with ⟨between, rfl, hafter⟩ | ⟨between, rfl, hafter⟩
  · cases between with
    | nil => exact ⟨(List.append_nil before).symm, (List.cons.inj hafter).2⟩
    | cons y between =>
      obtain ⟨rfl, rfl⟩ := List.cons.inj hafter
      exact absurd (List.mem_append_right between List.mem_cons_self) hx
  · cases between with
    | nil => exact ⟨List.append_nil before', (List.cons.inj hafter).2.symm⟩
    | cons y between =>
      obtain ⟨rfl, rfl⟩ := List.cons.inj hafter
      exact absurd (List.mem_append_right between List.mem_cons_self) hx'

/-- Metrics have the same canonical text if they agree in name, kind and the text of the value. -/
theorem canonicalText_eq_iff {m m' : Metric} :
    m.canonicalText = m'.canonicalText ↔
      m.name = m'.name ∧ m.kind = m'.kind ∧ m.value.signedText = m'.value.signedText := by
  rw [← String.toList_inj, toList_canonicalText, toList_canonicalText]
  constructor
  · intro h
    obtain ⟨hkey, hvalue⟩ := append_cons_inj_of_not_mem (Value.colon_not_mem_signedText _)
      (Value.colon_not_mem_signedText _) h
    obtain ⟨hname, hkind⟩ := append_cons_inj_of_not_mem (colon_not_mem_kindName _)
      (colon_not_mem_kindName _) hkey
    exact ⟨String.toList_inj.mp hname, Kind.name_injective (String.toList_inj.mp hkind),
      String.toList_inj.mp hvalue⟩
  · rintro ⟨hname, hkind, hvalue⟩
    rw [hname, hkind, hvalue]

end Metric

end Telemetry

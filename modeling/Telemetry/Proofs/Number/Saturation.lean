-- SUMMARY: Saturating sums against exact sums: they agree as long as no partial sum leaves the range.
import Mathlib
import Telemetry.Number.Saturating

/-!
# Saturating sums

A saturating sum depends on the order of its terms as soon as it crosses a bound. Below the bounds it is
the exact sum, and a list whose magnitudes add up to at most the upper bound stays below them in any
order.
-/

namespace Telemetry

/-- The integer is the value of a 64-bit integer. -/
def InRange (i : Int) : Prop :=
  Int64.minValue.toInt ≤ i ∧ i ≤ Int64.maxValue.toInt

instance (i : Int) : Decidable (InRange i) :=
  inferInstanceAs (Decidable (_ ∧ _))

theorem toInt_saturatingAdd {a b : Int64} (h : InRange (a.toInt + b.toInt)) :
    (saturatingAdd a b).toInt = a.toInt + b.toInt :=
  Int64.toInt_ofIntClamp h.1 h.2

theorem toInt_saturatingSub {a b : Int64} (h : InRange (a.toInt - b.toInt)) :
    (saturatingSub a b).toInt = a.toInt - b.toInt :=
  Int64.toInt_ofIntClamp h.1 h.2

theorem zero_saturatingAdd (a : Int64) : saturatingAdd 0 a = a := by
  unfold saturatingAdd
  rw [Int64.toInt_zero, Int.zero_add, Int64.ofIntClamp_toInt]

/-! ## Sums of lists -/

/-- The sum of 64-bit integers in the order of the list, stopped at the bounds. -/
def saturatingSum (ds : List Int64) : Int64 :=
  ds.foldl saturatingAdd 0

/-- The sum of 64-bit integers without bounds. -/
def exactSum (ds : List Int64) : Int :=
  (ds.map Int64.toInt).sum

/-- The sum of the magnitudes of 64-bit integers. -/
def absoluteSum (ds : List Int64) : Int :=
  (ds.map fun d => |d.toInt|).sum

@[simp] theorem exactSum_nil : exactSum [] = 0 := rfl

@[simp] theorem exactSum_cons (d : Int64) (ds : List Int64) :
    exactSum (d :: ds) = d.toInt + exactSum ds := by
  unfold exactSum
  rw [List.map_cons, List.sum_cons]

@[simp] theorem exactSum_append (ds es : List Int64) :
    exactSum (ds ++ es) = exactSum ds + exactSum es := by
  unfold exactSum
  rw [List.map_append, List.sum_append]

theorem exactSum_perm {ds es : List Int64} (h : ds.Perm es) : exactSum ds = exactSum es :=
  (h.map _).sum_eq

theorem absoluteSum_perm {ds es : List Int64} (h : ds.Perm es) :
    absoluteSum ds = absoluteSum es :=
  (h.map _).sum_eq

theorem absoluteSum_cons (d : Int64) (ds : List Int64) :
    absoluteSum (d :: ds) = |d.toInt| + absoluteSum ds := by
  unfold absoluteSum
  rw [List.map_cons, List.sum_cons]

/-- The exact sum of every beginning of a list is bounded by the magnitudes of the whole. -/
theorem abs_exactSum_take_le (ds : List Int64) (k : Nat) :
    |exactSum (ds.take k)| ≤ absoluteSum ds := by
  induction ds generalizing k with
  | nil => rw [List.take_nil]; rfl
  | cons d ds ih =>
    rw [absoluteSum_cons]
    cases k with
    | zero =>
      have hrest : 0 ≤ absoluteSum ds := (abs_nonneg _).trans (ih 0)
      rw [List.take_zero, exactSum_nil, abs_zero]
      exact add_nonneg (abs_nonneg _) hrest
    | succ k =>
      rw [List.take_succ_cons, exactSum_cons]
      exact (abs_add_le _ _).trans (Int.add_le_add_left (ih k) _)

/-- As long as no partial sum leaves the range, the saturating sum onto a start is exact. -/
theorem toInt_foldl_saturatingAdd (ds : List Int64) (start : Int64)
    (h : ∀ k, InRange (start.toInt + exactSum (ds.take k))) :
    (ds.foldl saturatingAdd start).toInt = start.toInt + exactSum ds := by
  induction ds generalizing start with
  | nil => rw [exactSum_nil, Int.add_zero]; rfl
  | cons d ds ih =>
    have hfirst : (saturatingAdd start d).toInt = start.toInt + d.toInt := by
      refine toInt_saturatingAdd ?_
      have h1 := h 1
      rwa [List.take_succ_cons, List.take_zero, exactSum_cons, exactSum_nil, Int.add_zero] at h1
    rw [List.foldl_cons, ih, hfirst, exactSum_cons, Int.add_assoc]
    intro k
    have hk := h (k + 1)
    rwa [List.take_succ_cons, exactSum_cons, ← Int.add_assoc, ← hfirst] at hk

/-- A saturating sum is exact if no partial sum leaves the range. -/
theorem toInt_saturatingSum {ds : List Int64} (h : ∀ k, InRange (exactSum (ds.take k))) :
    (saturatingSum ds).toInt = exactSum ds := by
  have hzero : ∀ k, InRange ((0 : Int64).toInt + exactSum (ds.take k)) := by
    intro k
    rw [Int64.toInt_zero, Int.zero_add]
    exact h k
  unfold saturatingSum
  rw [toInt_foldl_saturatingAdd ds 0 hzero, Int64.toInt_zero, Int.zero_add]

/-- If the magnitudes add up to at most the upper bound, no partial sum leaves the range. -/
theorem inRange_exactSum_take {ds : List Int64} (h : absoluteSum ds ≤ Int64.maxValue.toInt)
    (k : Nat) : InRange (exactSum (ds.take k)) := by
  have hle := abs_le.mp ((abs_exactSum_take_le ds k).trans h)
  have hmin : Int64.minValue.toInt ≤ -Int64.maxValue.toInt := by decide
  exact ⟨hmin.trans hle.1, hle.2⟩

/-- Across a bound the order of the terms counts. -/
example : saturatingSum [Int64.maxValue, 1, -1] ≠ saturatingSum [Int64.maxValue, -1, 1] := by
  decide

end Telemetry

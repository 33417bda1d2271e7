-- SUMMARY: Laws of the table of instances: what allocation and updates leave behind every handle.
import Telemetry.Metric.Instances

/-!
# Laws of instances

The view of the table is the metric behind a handle. New instances stand behind all others, so handles
that were given out before keep their metrics; an update changes the metric behind one handle.
-/

namespace Telemetry.Instances

/-- The number of instances; smaller handles have a metric. -/
def size (t : Instances) : Nat :=
  t.cells.size

/-- The table with more instances behind the others. -/
def append (t : Instances) (metrics : List Metric) : Instances :=
  ⟨t.cells ++ metrics.toArray⟩

/-! ## Handles -/

theorem get?_eq_none_iff {t : Instances} {h : Handle} : t.get? h = none ↔ t.size ≤ h :=
  Array.getElem?_eq_none_iff

theorem lt_size_of_get? {t : Instances} {h : Handle} {m : Metric} (hget : t.get? h = some m) :
    h < t.size := by
  rcases Nat.lt_or_ge h t.size with hlt | hge
  · exact hlt
  · rw [get?_eq_none_iff.mpr hge] at hget
    cases hget

/-! ## New instances -/

@[simp] theorem size_append (t : Instances) (metrics : List Metric) :
    (t.append metrics).size = t.size + metrics.length := by
  unfold size append
  rw [Array.size_append]
  rfl

@[simp] theorem append_nil (t : Instances) : t.append [] = t := by
  unfold append
  rw [Array.append_empty]

theorem append_append (t : Instances) (xs ys : List Metric) :
    t.append (xs ++ ys) = (t.append xs).append ys := by
  unfold append
  rw [Array.append_assoc]
  exact congrArg (fun cells => Instances.mk (t.cells ++ cells)) (List.append_toArray xs ys).symm

/-- Handles that were given out before keep their metrics. -/
theorem get?_append_of_lt {t : Instances} {h : Handle} (hlt : h < t.size) (metrics : List Metric) :
    (t.append metrics).get? h = t.get? h :=
  Array.getElem?_append_left hlt

@[simp] theorem get?_append_size (t : Instances) (m : Metric) (metrics : List Metric) :
    (t.append (m :: metrics)).get? t.size = some m := by
  unfold get? append size
  rw [Array.getElem?_append_right (Nat.le_refl _), Nat.sub_self]
  rfl

/-- Behind the handles of new instances are their metrics. -/
theorem exists_get?_append {t : Instances} {metrics : List Metric} {h : Handle}
    (hmem : h ∈ List.range' t.size metrics.length) :
    ∃ m ∈ metrics, (t.append metrics).get? h = some m := by
  obtain ⟨hle, hlt⟩ := List.mem_range'_1.mp hmem
  have hindex : h - t.size < metrics.length := Nat.sub_lt_left_of_lt_add hle hlt
  refine ⟨metrics[h - t.size], List.getElem_mem hindex, ?_⟩
  unfold get? append
  rw [Array.getElem?_append_right hle, List.getElem?_toArray]
  exact List.getElem?_eq_getElem hindex

theorem alloc_eq (t : Instances) (m : Metric) : t.alloc m = (t.size, t.append [m]) := by
  unfold alloc append size
  rw [Array.push_eq_append]

/-- A list of new instances gets consecutive handles. -/
theorem allocAll_eq (t : Instances) (metrics : List Metric) :
    t.allocAll metrics = (List.range' t.size metrics.length, t.append metrics) := by
  induction metrics generalizing t with
  | nil =>
    rw [append_nil]
    rfl
  | cons m metrics ih =>
    have hsize : (t.append [m]).size = t.size + 1 := size_append t [m]
    unfold allocAll
    rw [alloc_eq]
    dsimp only
    rw [ih, ← append_append, hsize, List.length_cons, List.range'_succ]
    rfl

/-! ## Updates -/

@[simp] theorem size_update (t : Instances) (h : Handle) (f : Value → Value) :
    (t.update h f).size = t.size :=
  Array.size_modify

/-- An update changes the metric behind its own handle alone. -/
theorem get?_update (t : Instances) (h : Handle) (f : Value → Value) (other : Handle) :
    (t.update h f).get? other =
      if h = other then (t.get? other).map (Metric.update f) else t.get? other := by
  unfold get? update
  exact Array.getElem?_modify

theorem get?_update_self (t : Instances) (h : Handle) (f : Value → Value) :
    (t.update h f).get? h = (t.get? h).map (Metric.update f) := by
  rw [get?_update, if_pos rfl]

theorem get?_update_of_ne (t : Instances) {h other : Handle} (f : Value → Value)
    (hne : h ≠ other) : (t.update h f).get? other = t.get? other := by
  rw [get?_update, if_neg hne]

theorem ext_get? {t u : Instances} (h : ∀ handle, t.get? handle = u.get? handle) : t = u := by
  cases t
  cases u
  exact congrArg Instances.mk (Array.ext_getElem? h)

/-- Updates of old instances and the arrival of new ones can be exchanged. -/
theorem update_append {t : Instances} {h : Handle} (hlt : h < t.size) (f : Value → Value)
    (metrics : List Metric) : (t.append metrics).update h f = (t.update h f).append metrics := by
  refine ext_get? fun other => ?_
  rw [get?_update]
  by_cases hother : other < t.size
  · rw [get?_append_of_lt hother, get?_append_of_lt (by rwa [size_update]), get?_update]
  · have hne : h ≠ other := fun heq => hother (heq ▸ hlt)
    have hge : t.size ≤ other := Nat.le_of_not_lt hother
    rw [if_neg hne]
    unfold get? append
    rw [Array.getElem?_append_right hge,
      Array.getElem?_append_right (Nat.le_trans (Nat.le_of_eq (size_update t h f)) hge)]
    congr 1
    exact congrArg (other - ·) (size_update t h f).symm

/-- Where the current metrics can be stored, the instances are given back. -/
theorem storeBy_of_ok {σ : Type} {t : Instances} {store : List Metric → σ → Outcome Unit × σ}
    {handles : List Handle} {s s' : σ} (h : store (t.metrics handles) s = (.ok (), s')) :
    t.storeBy store handles s = (.ok handles, s') := by
  unfold storeBy
  rw [h]
  rfl

end Telemetry.Instances

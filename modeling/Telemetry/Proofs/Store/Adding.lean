-- SUMMARY: Adding instances: the returned ones are filed under the keys of the given ones, and their values are all that changes in a snapshot.
import Telemetry.Proofs.Backup.File
import Telemetry.Proofs.Store.Filing

/-!
# Adding instances

Each returned instance is the one that stands under the key of the given one at the same position, with
the value that it has after the whole batch. A key without a returned instance keeps its value. So the
entries of the returned instances, put into the snapshot from before, give the snapshot afterwards, in
whatever way the batch repeats keys or instances.
-/

namespace Telemetry.MemoryStore

/-- All handles name instances. -/
def Known (t : Instances) (handles : List Handle) : Prop :=
  ∀ h ∈ handles, ∃ m, t.get? h = some m

theorem add_cons (s : MemoryStore) (t : Instances) (h : Handle) (handles : List Handle) :
    s.add t (h :: handles) =
      ((s.addOne t h).1 :: ((s.addOne t h).2.1.add (s.addOne t h).2.2 handles).1,
        ((s.addOne t h).2.1.add (s.addOne t h).2.2 handles).2) := rfl

@[simp] theorem size_add (s : MemoryStore) (t : Instances) (handles : List Handle) :
    (s.add t handles).2.2.size = t.size := by
  induction handles generalizing s t with
  | nil => rfl
  | cons h handles ih =>
    rw [add_cons]
    exact (ih _ _).trans (size_addOne s t h)

/-- Handles stay known while no instance goes. -/
theorem Known.mono {t u : Instances} (hsize : t.size ≤ u.size) {handles : List Handle}
    (h : Known t handles) : Known u handles := by
  intro handle hmem
  obtain ⟨m, hm⟩ := h handle hmem
  have hlt := Nat.lt_of_lt_of_le (Instances.lt_size_of_get? hm) hsize
  refine Option.ne_none_iff_exists'.mp fun hnone => ?_
  exact absurd hlt (Nat.not_lt.mpr (Instances.get?_eq_none_iff.mp hnone))

/-- An addition changes values, never the kind or the name of an instance. -/
theorem get?_addOne (s : MemoryStore) {t : Instances} (h : Handle) {other : Handle} {m : Metric}
    (hm : t.get? other = some m) :
    ∃ m', (s.addOne t h).2.2.get? other = some m' ∧ m'.kind = m.kind ∧ m'.name = m.name := by
  cases hh : t.get? h with
  | none =>
    unfold addOne
    rw [hh]
    exact ⟨m, hm, rfl, rfl⟩
  | some given =>
    cases hfind : s.find? given.kind given.name with
    | none =>
      rw [addOne_of_new hh hfind]
      exact ⟨m, hm, rfl, rfl⟩
    | some stored =>
      rw [addOne_of_stored hh hfind, Instances.get?_update, hm]
      split
      · exact ⟨m.update (Value.apply given.value), rfl, Value.kind_apply _ _, rfl⟩
      · exact ⟨m, rfl, rfl, rfl⟩

theorem get?_add (s : MemoryStore) {t : Instances} (handles : List Handle) {other : Handle}
    {m : Metric} (hm : t.get? other = some m) :
    ∃ m', (s.add t handles).2.2.get? other = some m' ∧ m'.kind = m.kind ∧ m'.name = m.name := by
  induction handles generalizing s t m with
  | nil => exact ⟨m, hm, rfl, rfl⟩
  | cons h handles ih =>
    obtain ⟨m₁, hm₁, hkind₁, hname₁⟩ := get?_addOne s h hm
    obtain ⟨m', hm', hkind, hname⟩ := ih (s.addOne t h).2.1 hm₁
    exact ⟨m', hm', hkind.trans hkind₁, hname.trans hname₁⟩

theorem known_addOne {s : MemoryStore} {t : Instances} {handles : List Handle}
    (hknown : Known t handles) (h : Handle) : Known (s.addOne t h).2.2 handles := by
  intro other hmem
  obtain ⟨m, hm⟩ := hknown other hmem
  obtain ⟨m', hm', -, -⟩ := get?_addOne s h hm
  exact ⟨m', hm'⟩

theorem filed_add {s : MemoryStore} {t : Instances} (hfiled : s.Filed t) (handles : List Handle) :
    (s.add t handles).2.1.Filed (s.add t handles).2.2 := by
  induction handles generalizing s t with
  | nil => exact hfiled
  | cons h handles ih =>
    rw [add_cons]
    exact ih (filed_addOne hfiled h)

/-- Once filed, an instance stays under its key. -/
theorem find?_add_of_some {s : MemoryStore} {t : Instances} (handles : List Handle) {k : Kind}
    {n : String} {stored : Handle} (hfind : s.find? k n = some stored) :
    (s.add t handles).2.1.find? k n = some stored := by
  induction handles generalizing s t with
  | nil => exact hfind
  | cons h handles ih =>
    rw [add_cons]
    exact ih (find?_addOne_of_some h hfind)

/-- Every returned instance is filed under the key of a given one. -/
theorem find?_of_mem_add {s : MemoryStore} {t : Instances} {handles : List Handle}
    (hknown : Known t handles) {h : Handle} (hmem : h ∈ (s.add t handles).1) :
    ∃ given ∈ handles, ∃ m, t.get? given = some m ∧
      (s.add t handles).2.1.find? m.kind m.name = some h := by
  induction handles generalizing s t with
  | nil => cases hmem
  | cons given handles ih =>
    obtain ⟨m, hm⟩ := hknown given List.mem_cons_self
    rw [add_cons] at hmem ⊢
    rcases List.mem_cons.mp hmem with rfl | hmem
    · refine ⟨given, List.mem_cons_self, m, hm, find?_add_of_some handles ?_⟩
      rw [find?_addOne hm, if_pos ⟨rfl, rfl⟩]
    · have hrest : Known t handles := fun other hother => hknown other (List.mem_cons_of_mem _ hother)
      obtain ⟨other, hother, m₁, hm₁, hfind⟩ := ih (known_addOne hrest given) hmem
      obtain ⟨m₀, hm₀⟩ := hrest other hother
      obtain ⟨m', hm', hkind, hname⟩ := get?_addOne s given hm₀
      rw [hm₁] at hm'
      cases hm'
      refine ⟨other, List.mem_cons_of_mem _ hother, m₀, hm₀, ?_⟩
      rw [← hkind, ← hname]
      exact hfind

/-- A key without a returned instance keeps its value. -/
theorem value?_add_of_forall_ne {s : MemoryStore} {t : Instances} (hfiled : s.Filed t)
    {handles : List Handle} (hknown : Known t handles) {k : Kind} {n : String}
    (h : ∀ stored ∈ (s.add t handles).1, (s.add t handles).2.1.find? k n ≠ some stored) :
    (s.add t handles).2.1.value? (s.add t handles).2.2 k n = s.value? t k n := by
  induction handles generalizing s t with
  | nil => rfl
  | cons given handles ih =>
    obtain ⟨m, hm⟩ := hknown given List.mem_cons_self
    have hrest : Known t handles := fun other hother => hknown other (List.mem_cons_of_mem _ hother)
    rw [add_cons] at h ⊢
    have hkey : ¬ (k = m.kind ∧ n = m.name) := by
      intro hkey
      refine h _ List.mem_cons_self (find?_add_of_some handles ?_)
      rw [find?_addOne hm, if_pos hkey]
    rw [ih (filed_addOne hfiled given) (known_addOne hrest given)
      fun stored hstored => h stored (List.mem_cons_of_mem _ hstored), value?_addOne hfiled hm,
      if_neg hkey]

theorem mem_metrics_iff {t : Instances} {handles : List Handle} {m : Metric} :
    m ∈ t.metrics handles ↔ ∃ h ∈ handles, t.get? h = some m :=
  List.mem_filterMap

/-- The names of the returned instances are names of the given ones. -/
theorem name_of_mem_metrics_add {s : MemoryStore} {t : Instances} (hfiled : s.Filed t)
    {handles : List Handle} (hknown : Known t handles) {m : Metric}
    (hm : m ∈ (s.add t handles).2.2.metrics (s.add t handles).1) :
    ∃ given ∈ handles, ∃ m₀, t.get? given = some m₀ ∧ m.name = m₀.name := by
  obtain ⟨h, hmem, hget⟩ := mem_metrics_iff.mp hm
  obtain ⟨given, hgiven, m₀, hm₀, hfind⟩ := find?_of_mem_add hknown hmem
  obtain ⟨m', hm', -, hname⟩ := filed_add hfiled handles _ _ _ hfind
  rw [hget] at hm'
  cases hm'
  exact ⟨given, hgiven, m₀, hm₀, hname⟩

/-- The returned instances are in the snapshot afterwards. -/
theorem entry_mem_snapshot_add {s : MemoryStore} {t : Instances} (hfiled : s.Filed t)
    {handles : List Handle} (hknown : Known t handles) {m : Metric}
    (hm : m ∈ (s.add t handles).2.2.metrics (s.add t handles).1) :
    m.entry ∈ ((s.add t handles).2.1.snapshot (s.add t handles).2.2).toEntries := by
  obtain ⟨h, hmem, hget⟩ := mem_metrics_iff.mp hm
  obtain ⟨given, -, m₀, -, hfind⟩ := find?_of_mem_add hknown hmem
  obtain ⟨m', hm', hkind, hname⟩ := filed_add hfiled handles _ _ _ hfind
  rw [hget] at hm'
  cases hm'
  rw [← hkind, ← hname] at hfind
  rw [Snapshot.mem_toEntries_iff, Metric.entry, value?_snapshot_name, value?_of_find? hfind hget]
  rfl

/-- The entries of the returned instances carry the snapshot from before to the one afterwards. -/
theorem foldl_put_snapshot {s : MemoryStore} {t : Instances} (hfiled : s.Filed t)
    {handles : List Handle} (hknown : Known t handles) :
    (((s.add t handles).2.2.metrics (s.add t handles).1).map Metric.entry).foldl Snapshot.put
        (s.snapshot t) =
      (s.add t handles).2.1.snapshot (s.add t handles).2.2 := by
  have hfiled' := filed_add hfiled handles
  refine Snapshot.ext_value? (Snapshot.populated_foldl_put _ (populated_snapshot s t))
    (populated_snapshot _ _) fun type name => ?_
  rw [Snapshot.value?_foldl_put]
  cases hlast : Snapshot.last?
      (((s.add t handles).2.2.metrics (s.add t handles).1).map Metric.entry) type name with
  | some text =>
    obtain ⟨m, hm, hentry⟩ := List.mem_map.mp (Snapshot.mem_of_last?_eq_some hlast)
    have hmem := entry_mem_snapshot_add hfiled hknown hm
    rw [hentry, Snapshot.mem_toEntries_iff] at hmem
    rw [Option.some_or, hmem]
  | none =>
    rw [Option.none_or, value?_snapshot, value?_snapshot]
    cases htype : Kind.ofName? type with
    | none => rfl
    | some k =>
      obtain rfl := Kind.ofName?_eq_some_iff.mp htype
      rw [Option.bind_some, Option.bind_some, value?_add_of_forall_ne hfiled hknown]
      intro stored hstored hfind
      obtain ⟨m, hm, rfl, rfl⟩ := hfiled' _ _ _ hfind
      have hentry : m.entry ∈
          ((s.add t handles).2.2.metrics (s.add t handles).1).map Metric.entry :=
        List.mem_map_of_mem (mem_metrics_iff.mpr ⟨stored, hstored, hm⟩)
      exact Snapshot.last?_eq_none_iff.mp hlast _ hentry ⟨rfl, rfl⟩

end Telemetry.MemoryStore

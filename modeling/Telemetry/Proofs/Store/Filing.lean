-- SUMMARY: The filing of instances: every stored instance stands under its own kind and name, and an addition changes one value.
import Telemetry.Proofs.Instances
import Telemetry.Proofs.Snapshot
import Telemetry.Store.Memory

/-!
# Filing

A store refers to instances that others may hold too. What keeps its values apart is that every stored
instance is filed under the kind and the name of its own metric: no instance stands under two keys, and
an update of one key is seen under no other.
-/

namespace Telemetry

namespace MemoryStore

/-! ## Keys -/

@[simp] theorem find?_empty (kind : Kind) (name : String) : empty.find? kind name = none := by
  cases kind <;> rfl

/-- Filing an instance changes the look-up of its own key alone. -/
@[simp] theorem find?_put (s : MemoryStore) (kind : Kind) (name : String) (h : Handle)
    (k : Kind) (n : String) :
    (s.put kind name h).find? k n = if k = kind ∧ n = name then some h else s.find? k n := by
  cases kind <;> cases k <;> simp [put, find?, ofKind]

/-- Every stored instance is there and is filed under its own kind and name. -/
def Filed (s : MemoryStore) (t : Instances) : Prop :=
  ∀ k n h, s.find? k n = some h → ∃ m, t.get? h = some m ∧ m.kind = k ∧ m.name = n

theorem filed_empty (t : Instances) : empty.Filed t := by
  intro k n h hfind
  rw [find?_empty] at hfind
  cases hfind

/-- No instance stands under two keys. -/
theorem Filed.key_unique {s : MemoryStore} {t : Instances} (hfiled : s.Filed t) {k k' : Kind}
    {n n' : String} {h : Handle} (h₁ : s.find? k n = some h) (h₂ : s.find? k' n' = some h) :
    k = k' ∧ n = n' := by
  obtain ⟨m, hm, rfl, rfl⟩ := hfiled k n h h₁
  obtain ⟨m', hm', rfl, rfl⟩ := hfiled k' n' h h₂
  rw [hm] at hm'
  cases hm'
  exact ⟨rfl, rfl⟩

theorem Filed.lt_size {s : MemoryStore} {t : Instances} (hfiled : s.Filed t) {k : Kind}
    {n : String} {h : Handle} (hfind : s.find? k n = some h) : h < t.size := by
  obtain ⟨m, hm, -, -⟩ := hfiled k n h hfind
  exact Instances.lt_size_of_get? hm

theorem Filed.append {s : MemoryStore} {t : Instances} (hfiled : s.Filed t)
    (metrics : List Metric) : s.Filed (t.append metrics) := by
  intro k n h hfind
  obtain ⟨m, hm, hkey⟩ := hfiled k n h hfind
  exact ⟨m, by rw [Instances.get?_append_of_lt (hfiled.lt_size hfind), hm], hkey⟩

theorem Filed.update {s : MemoryStore} {t : Instances} (hfiled : s.Filed t) (h : Handle)
    {f : Value → Value} (hf : ∀ v : Value, (f v).kind = v.kind) : s.Filed (t.update h f) := by
  intro k n other hfind
  obtain ⟨m, hm, hkind, hname⟩ := hfiled k n other hfind
  rw [Instances.get?_update, hm]
  split
  · exact ⟨m.update f, rfl, (hf m.value).trans hkind, hname⟩
  · exact ⟨m, rfl, hkind, hname⟩

theorem Filed.put {s : MemoryStore} {t : Instances} (hfiled : s.Filed t) {h : Handle}
    {m : Metric} (hm : t.get? h = some m) : (s.put m.kind m.name h).Filed t := by
  intro k n other hfind
  rw [find?_put] at hfind
  split at hfind
  · rename_i hkey
    cases hfind
    exact ⟨m, hm, hkey.1.symm, hkey.2.symm⟩
  · exact hfiled k n other hfind

/-! ## Values -/

/-- The value under a key. -/
def value? (s : MemoryStore) (t : Instances) (kind : Kind) (name : String) : Option Value :=
  (s.find? kind name).bind fun h => (t.get? h).map (·.value)

@[simp] theorem value?_empty (t : Instances) (kind : Kind) (name : String) :
    empty.value? t kind name = none := by
  unfold value?
  rw [find?_empty]
  rfl

theorem value?_of_find? {s : MemoryStore} {t : Instances} {kind : Kind} {name : String} {h : Handle}
    {m : Metric} (hfind : s.find? kind name = some h) (hm : t.get? h = some m) :
    s.value? t kind name = some m.value := by
  unfold value?
  rw [hfind, Option.bind_some, hm]
  rfl

/-- The keys with a value are the keys with an instance. -/
theorem value?_isSome_iff {s : MemoryStore} {t : Instances} (hfiled : s.Filed t) {kind : Kind}
    {name : String} : (s.value? t kind name).isSome ↔ (s.find? kind name).isSome := by
  unfold value?
  cases hfind : s.find? kind name with
  | none => exact iff_of_false (fun h => nomatch h) (fun h => nomatch h)
  | some h =>
    obtain ⟨m, hm, -, -⟩ := hfiled kind name h hfind
    rw [Option.bind_some, hm]
    exact iff_of_true rfl rfl

theorem value?_eq_none_iff {s : MemoryStore} {t : Instances} (hfiled : s.Filed t) {kind : Kind}
    {name : String} : s.value? t kind name = none ↔ s.find? kind name = none := by
  rw [← Option.not_isSome_iff_eq_none, value?_isSome_iff hfiled, Option.not_isSome_iff_eq_none]

/-- The value under a key is of the kind of the key. -/
theorem kind_of_value? {s : MemoryStore} {t : Instances} (hfiled : s.Filed t) {kind : Kind}
    {name : String} {v : Value} (h : s.value? t kind name = some v) : v.kind = kind := by
  obtain ⟨handle, hfind, hget⟩ := Option.bind_eq_some_iff.mp h
  obtain ⟨m, hm, hkind, -⟩ := hfiled kind name handle hfind
  rw [hm] at hget
  cases hget
  exact hkind

theorem value?_append {s : MemoryStore} {t : Instances} (hfiled : s.Filed t)
    (metrics : List Metric) (kind : Kind) (name : String) :
    s.value? (t.append metrics) kind name = s.value? t kind name := by
  unfold value?
  cases hfind : s.find? kind name with
  | none => rfl
  | some h => rw [Option.bind_some, Option.bind_some,
      Instances.get?_append_of_lt (hfiled.lt_size hfind)]

theorem value?_put (s : MemoryStore) {t : Instances} {h : Handle} {m : Metric}
    (hm : t.get? h = some m) (k : Kind) (n : String) :
    (s.put m.kind m.name h).value? t k n =
      if k = m.kind ∧ n = m.name then some m.value else s.value? t k n := by
  unfold value?
  rw [find?_put]
  split
  · rw [Option.bind_some, hm]
    rfl
  · rfl

/-- An update of the instance under a key is seen under this key alone. -/
theorem value?_update {s : MemoryStore} {t : Instances} (hfiled : s.Filed t) {kind : Kind}
    {name : String} {h : Handle} (hfind : s.find? kind name = some h) (f : Value → Value)
    (k : Kind) (n : String) :
    s.value? (t.update h f) k n =
      if k = kind ∧ n = name then (s.value? t k n).map f else s.value? t k n := by
  unfold value?
  split
  · rename_i hkey
    obtain ⟨rfl, rfl⟩ := hkey
    rw [hfind, Option.bind_some, Option.bind_some, Instances.get?_update_self, Option.map_map,
      Option.map_map]
    rfl
  · rename_i hkey
    cases hother : s.find? k n with
    | none => rfl
    | some other =>
      have hne : h ≠ other := fun heq => hkey (hfiled.key_unique hother (heq ▸ hfind))
      rw [Option.bind_some, Option.bind_some, Instances.get?_update_of_ne t f hne]

/-! ## Adding one instance -/

/-- The value under the key of an update: the update itself if there was none, otherwise what the stored
    value makes of it. -/
def absorb (update : Value) : Option Value → Value
  | none => update
  | some stored => Value.apply update stored

theorem addOne_of_stored {s : MemoryStore} {t : Instances} {h stored : Handle} {m : Metric}
    (hm : t.get? h = some m) (hfind : s.find? m.kind m.name = some stored) :
    s.addOne t h = (stored, s, t.update stored (Value.apply m.value)) := by
  unfold addOne
  simp only [hm, hfind]

theorem addOne_of_new {s : MemoryStore} {t : Instances} {h : Handle} {m : Metric}
    (hm : t.get? h = some m) (hfind : s.find? m.kind m.name = none) :
    s.addOne t h = (h, s.put m.kind m.name h, t) := by
  unfold addOne
  simp only [hm, hfind]

theorem filed_addOne {s : MemoryStore} {t : Instances} (hfiled : s.Filed t) (h : Handle) :
    (s.addOne t h).2.1.Filed (s.addOne t h).2.2 := by
  cases hm : t.get? h with
  | none =>
    unfold addOne
    rw [hm]
    exact hfiled
  | some m =>
    cases hfind : s.find? m.kind m.name with
    | none =>
      rw [addOne_of_new hm hfind]
      exact hfiled.put hm
    | some stored =>
      rw [addOne_of_stored hm hfind]
      exact hfiled.update stored (Value.kind_apply m.value)

@[simp] theorem size_addOne (s : MemoryStore) (t : Instances) (h : Handle) :
    (s.addOne t h).2.2.size = t.size := by
  cases hm : t.get? h with
  | none =>
    unfold addOne
    rw [hm]
  | some m =>
    cases hfind : s.find? m.kind m.name with
    | none => rw [addOne_of_new hm hfind]
    | some stored => rw [addOne_of_stored hm hfind, Instances.size_update]

/-- Adding an instance leaves every other key as it was, and under its own key the result. -/
theorem find?_addOne {s : MemoryStore} {t : Instances} {h : Handle} {m : Metric}
    (hm : t.get? h = some m) (k : Kind) (n : String) :
    (s.addOne t h).2.1.find? k n =
      if k = m.kind ∧ n = m.name then some (s.addOne t h).1 else s.find? k n := by
  cases hfind : s.find? m.kind m.name with
  | none => rw [addOne_of_new hm hfind, find?_put]
  | some stored =>
    rw [addOne_of_stored hm hfind]
    split
    · rename_i hkey
      rw [hkey.1, hkey.2, hfind]
    · rfl

/-- Once filed, an instance stays under its key. -/
theorem find?_addOne_of_some {s : MemoryStore} {t : Instances} (h : Handle) {k : Kind}
    {n : String} {stored : Handle} (hfind : s.find? k n = some stored) :
    (s.addOne t h).2.1.find? k n = some stored := by
  cases hm : t.get? h with
  | none =>
    unfold addOne
    rw [hm]
    exact hfind
  | some m =>
    rw [find?_addOne hm]
    split
    · rename_i hkey
      rw [addOne_of_stored hm (by rw [← hkey.1, ← hkey.2, hfind])]
    · exact hfind

/-- Adding an instance changes the value under its own key alone. -/
theorem value?_addOne {s : MemoryStore} {t : Instances} (hfiled : s.Filed t) {h : Handle}
    {m : Metric} (hm : t.get? h = some m) (k : Kind) (n : String) :
    (s.addOne t h).2.1.value? (s.addOne t h).2.2 k n =
      if k = m.kind ∧ n = m.name then some (absorb m.value (s.value? t k n))
      else s.value? t k n := by
  cases hfind : s.find? m.kind m.name with
  | none =>
    rw [addOne_of_new hm hfind, value?_put s hm]
    split
    · rename_i hkey
      rw [hkey.1, hkey.2, (value?_eq_none_iff hfiled).mpr hfind]
      rfl
    · rfl
  | some stored =>
    rw [addOne_of_stored hm hfind, value?_update hfiled hfind]
    split
    · rename_i hkey
      cases hvalue : s.value? t k n with
      | none =>
        rw [value?_eq_none_iff hfiled, hkey.1, hkey.2, hfind] at hvalue
        cases hvalue
      | some v => rfl
    · rfl

/-- An addition and the arrival of new instances can be exchanged. -/
theorem addOne_append {s : MemoryStore} {t : Instances} (hfiled : s.Filed t) {h : Handle}
    (hlt : h < t.size) (metrics : List Metric) :
    s.addOne (t.append metrics) h =
      ((s.addOne t h).1, (s.addOne t h).2.1, (s.addOne t h).2.2.append metrics) := by
  have hget : (t.append metrics).get? h = t.get? h := Instances.get?_append_of_lt hlt metrics
  cases hm : t.get? h with
  | none => exact absurd hlt (Nat.not_lt.mpr (Instances.get?_eq_none_iff.mp hm))
  | some m =>
    rw [hm] at hget
    cases hfind : s.find? m.kind m.name with
    | none => rw [addOne_of_new hget hfind, addOne_of_new hm hfind]
    | some stored =>
      rw [addOne_of_stored hget hfind, addOne_of_stored hm hfind,
        Instances.update_append (hfiled.lt_size hfind)]

/-! ## Snapshots -/

theorem mem_entriesOfKind_iff {s : MemoryStore} {t : Instances} {kind : Kind}
    {e : Snapshot.Entry} :
    e ∈ s.entriesOfKind t kind ↔
      e.type = kind.name ∧ (s.value? t kind e.name).map Value.text = some e.value := by
  unfold entriesOfKind value? find?
  rw [List.mem_filterMap]
  constructor
  · rintro ⟨⟨name, h⟩, hmem, hentry⟩
    obtain ⟨m, hm, rfl⟩ := Option.map_eq_some_iff.mp hentry
    refine ⟨rfl, ?_⟩
    dsimp only
    rw [SortedMap.mem_entries_iff.mp hmem, Option.bind_some, hm]
    rfl
  · rintro ⟨htype, hvalue⟩
    obtain ⟨v, hv, htext⟩ := Option.map_eq_some_iff.mp hvalue
    obtain ⟨h, hfind, hget⟩ := Option.bind_eq_some_iff.mp hv
    obtain ⟨m, hm, rfl⟩ := Option.map_eq_some_iff.mp hget
    refine ⟨(e.name, h), SortedMap.mem_entries_iff.mpr hfind, ?_⟩
    dsimp only
    rw [hm, Option.map_some, htext, ← htype]

theorem mem_snapshotEntries_iff {s : MemoryStore} {t : Instances} {e : Snapshot.Entry} :
    e ∈ s.entriesOfKind t .counter ++ s.entriesOfKind t .gauge ↔
      ((Kind.ofName? e.type).bind fun k => s.value? t k e.name).map Value.text =
        some e.value := by
  rw [List.mem_append, mem_entriesOfKind_iff, mem_entriesOfKind_iff]
  constructor
  · rintro (⟨htype, hvalue⟩ | ⟨htype, hvalue⟩)
    · rwa [htype, Kind.ofName?_name]
    · rwa [htype, Kind.ofName?_name]
  · intro h
    cases hk : Kind.ofName? e.type with
    | none =>
      rw [hk] at h
      cases h
    | some k =>
      rw [hk, Option.bind_some] at h
      cases k with
      | counter => exact .inl ⟨Kind.ofName?_eq_some_iff.mp hk, h⟩
      | gauge => exact .inr ⟨Kind.ofName?_eq_some_iff.mp hk, h⟩

/-- A snapshot of the store has the texts of its values. -/
theorem value?_snapshot (s : MemoryStore) (t : Instances) (type name : String) :
    (s.snapshot t).value? type name =
      ((Kind.ofName? type).bind fun k => s.value? t k name).map Value.text := by
  unfold snapshot
  rw [Snapshot.value?_ofEntries]
  cases hlast : Snapshot.last? (s.entriesOfKind t .counter ++ s.entriesOfKind t .gauge)
      type name with
  | some value =>
    exact (mem_snapshotEntries_iff.mp (Snapshot.mem_of_last?_eq_some hlast)).symm
  | none =>
    cases hvalue : ((Kind.ofName? type).bind fun k => s.value? t k name).map Value.text with
    | none => rfl
    | some value =>
      have hmem := mem_snapshotEntries_iff (e := ⟨type, name, value⟩).mpr hvalue
      exact absurd ⟨rfl, rfl⟩ (Snapshot.last?_eq_none_iff.mp hlast _ hmem)

theorem value?_snapshot_name (s : MemoryStore) (t : Instances) (k : Kind) (name : String) :
    (s.snapshot t).value? k.name name = (s.value? t k name).map Value.text := by
  rw [value?_snapshot, Kind.ofName?_name, Option.bind_some]

/-- New instances are seen in no snapshot of a store that does not file them. -/
theorem snapshot_append {s : MemoryStore} {t : Instances} (hfiled : s.Filed t)
    (metrics : List Metric) : s.snapshot (t.append metrics) = s.snapshot t := by
  refine Snapshot.ext_value? (Snapshot.populated_ofEntries _) (Snapshot.populated_ofEntries _)
    fun type name => ?_
  rw [value?_snapshot, value?_snapshot]
  simp only [value?_append hfiled]

theorem populated_snapshot (s : MemoryStore) (t : Instances) : (s.snapshot t).Populated :=
  Snapshot.populated_ofEntries _

end MemoryStore

end Telemetry

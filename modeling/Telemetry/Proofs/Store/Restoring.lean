-- SUMMARY: Restoring a snapshot of values: it succeeds, and the store that it gives has the same snapshot.
import Telemetry.Proofs.Backup.File
import Telemetry.Proofs.Metric.Text
import Telemetry.Proofs.Outcome
import Telemetry.Proofs.Store.Filing

/-!
# Restoring

A snapshot is canonical if every entry of it is the entry of a metric and no type is without names; the
snapshots of stores are. Reading a canonical snapshot gives metrics with the same entries, and filing new
instances of them gives a store whose snapshot these entries make up.
-/

namespace Telemetry

/-- Metrics with the same entry are the same. -/
theorem Metric.entry_injective {m m' : Metric} (h : m.entry = m'.entry) : m = m' := by
  obtain ⟨name, value⟩ := m
  obtain ⟨name', value'⟩ := m'
  have hkind : value.kind = value'.kind := Kind.name_injective (congrArg Snapshot.Entry.type h)
  obtain rfl : name = name' := congrArg Snapshot.Entry.name h
  obtain rfl : value = value' := Value.eq_of_text_eq hkind (congrArg Snapshot.Entry.value h)
  rfl

/-- Every entry is the entry of a metric, and no type is without names. -/
structure Snapshot.Canonical (s : Snapshot) : Prop where
  populated : s.Populated
  entry : ∀ e ∈ s.toEntries, ∃ m : Metric, m.entry = e

namespace MemoryStore

/-- The snapshot of a store is canonical. -/
theorem canonical_snapshot {s : MemoryStore} {t : Instances} (hfiled : s.Filed t) :
    (s.snapshot t).Canonical where
  populated := populated_snapshot s t
  entry := by
    intro e he
    have hvalue := Snapshot.mem_toEntries_iff.mp he
    rw [value?_snapshot] at hvalue
    obtain ⟨v, hv, htext⟩ := Option.map_eq_some_iff.mp hvalue
    obtain ⟨k, htype, hstored⟩ := Option.bind_eq_some_iff.mp hv
    obtain ⟨type, name, value⟩ := e
    refine ⟨⟨name, v⟩, ?_⟩
    unfold Metric.entry Metric.kind
    rw [kind_of_value? hfiled hstored, ← Kind.ofName?_eq_some_iff.mp htype, htext]

/-! ## Snapshots and values -/

/-- Stores with the same values have the same snapshot. -/
theorem snapshot_eq_of_value?_eq {s u : MemoryStore} {t v : Instances}
    (h : ∀ kind name, s.value? t kind name = u.value? v kind name) :
    s.snapshot t = u.snapshot v := by
  refine Snapshot.ext_value? (populated_snapshot _ _) (populated_snapshot _ _) fun type name => ?_
  rw [value?_snapshot, value?_snapshot]
  exact congrArg (Option.map Value.text) (Option.bind_congr fun kind _ => h kind name)

/-- Stores with the same snapshot have the same values. -/
theorem value?_eq_of_snapshot_eq {s u : MemoryStore} {t v : Instances} (hs : s.Filed t)
    (hu : u.Filed v) (h : s.snapshot t = u.snapshot v) (kind : Kind) (name : String) :
    s.value? t kind name = u.value? v kind name := by
  have htext := congrArg (Snapshot.value? · kind.name name) h
  simp only [value?_snapshot_name] at htext
  cases hvalue : s.value? t kind name with
  | none =>
    rw [hvalue] at htext
    exact (Option.map_eq_none_iff.mp htext.symm).symm
  | some x =>
    rw [hvalue] at htext
    obtain ⟨y, hy, hxy⟩ := Option.map_eq_some_iff.mp htext.symm
    have hkind : x.kind = y.kind := (kind_of_value? hs hvalue).trans (kind_of_value? hu hy).symm
    rw [hy, Value.eq_of_text_eq hkind hxy.symm]

/-! ## Reading -/

/-- Texts of values of one kind are read back. -/
theorem readType_eq_ok (type : String) {kind : Kind} {names : List (String × String)}
    (h : ∀ p ∈ names, ∃ v : Value, v.kind = kind ∧ v.text = p.2) :
    ∃ metrics, readType type kind names = .ok metrics ∧
      metrics.map Metric.entry = names.map fun p => ⟨kind.name, p.1, p.2⟩ := by
  induction names with
  | nil => exact ⟨[], rfl, rfl⟩
  | cons p names ih =>
    obtain ⟨name, raw⟩ := p
    obtain ⟨v, rfl, rfl⟩ := h (name, raw) List.mem_cons_self
    obtain ⟨metrics, hread, hentries⟩ := ih fun p hp => h p (List.mem_cons_of_mem _ hp)
    refine ⟨⟨name, v⟩ :: metrics, ?_, ?_⟩
    · unfold readType
      rw [Value.read_text, hread]
      rfl
    · rw [List.map_cons, List.map_cons, hentries]
      rfl

/-- The names of one type in a canonical snapshot are read as metrics with the same entries. -/
theorem readType_of_entries {type : String} {names : SortedMap String}
    (hpopulated : names ≠ SortedMap.empty)
    (h : ∀ q ∈ names.entries, ∃ m : Metric, m.entry = ⟨type, q.1, q.2⟩) :
    ∃ kind metrics, type = Kind.name kind ∧ readType type kind names.entries = .ok metrics ∧
      metrics.map Metric.entry = names.entries.map fun q => ⟨type, q.1, q.2⟩ := by
  obtain ⟨q, hq⟩ := List.exists_mem_of_ne_nil names.entries fun hnil =>
    hpopulated (SortedMap.empty_of_entries_eq_nil hnil)
  obtain ⟨m, hm⟩ := h q hq
  obtain rfl : m.kind.name = type := congrArg Snapshot.Entry.type hm
  have hvalues : ∀ p ∈ names.entries, ∃ v : Value, v.kind = m.kind ∧ v.text = p.2 := by
    intro p hp
    obtain ⟨m', hm'⟩ := h p hp
    exact ⟨m'.value, Kind.name_injective (congrArg Snapshot.Entry.type hm'),
      congrArg Snapshot.Entry.value hm'⟩
  obtain ⟨metrics, hread, hentries⟩ := readType_eq_ok m.kind.name hvalues
  exact ⟨m.kind, metrics, rfl, hread, hentries⟩

theorem readSnapshot_eq_ok {types : List (String × SortedMap String)}
    (hpopulated : ∀ p ∈ types, p.2 ≠ SortedMap.empty)
    (h : ∀ p ∈ types, ∀ q ∈ p.2.entries, ∃ m : Metric, m.entry = ⟨p.1, q.1, q.2⟩) :
    ∃ metrics, readSnapshot types = .ok metrics ∧
      metrics.map Metric.entry =
        types.flatMap fun p => p.2.entries.map fun q => ⟨p.1, q.1, q.2⟩ := by
  induction types with
  | nil => exact ⟨[], rfl, rfl⟩
  | cons p types ih =>
    obtain ⟨type, names⟩ := p
    obtain ⟨kind, metrics, rfl, hread, hentries⟩ := readType_of_entries
      (hpopulated _ List.mem_cons_self) (h _ List.mem_cons_self)
    obtain ⟨others, hothers, hrest⟩ := ih (fun p hp => hpopulated p (List.mem_cons_of_mem _ hp))
      fun p hp => h p (List.mem_cons_of_mem _ hp)
    refine ⟨metrics ++ others, ?_, ?_⟩
    · unfold readSnapshot
      simp only [Kind.read_name, within_ok, ok_bind, hread, hothers]
    · rw [List.map_append, hentries, hrest, List.flatMap_cons]

/-- A canonical snapshot is read as metrics with the same entries. -/
theorem readSnapshot_of_canonical {snapshot : Snapshot} (h : snapshot.Canonical) :
    ∃ metrics, readSnapshot (SortedMap.entries snapshot) = .ok metrics ∧
      metrics.map Metric.entry = snapshot.toEntries := by
  refine readSnapshot_eq_ok ?_ ?_
  · intro p hp
    exact h.populated p.1 p.2 (SortedMap.mem_entries_iff.mp hp)
  · intro p hp q hq
    refine h.entry _ (List.mem_flatMap.mpr ⟨p, hp, ?_⟩)
    exact List.mem_map_of_mem hq

theorem mem_of_readType {type : String} {kind : Kind} {names : List (String × String)}
    {metrics : List Metric} (h : readType type kind names = .ok metrics) {m : Metric}
    (hm : m ∈ metrics) : m.kind = kind ∧ ∃ p ∈ names, p.1 = m.name := by
  induction names generalizing metrics with
  | nil =>
    cases h
    cases hm
  | cons p names ih =>
    obtain ⟨name, raw⟩ := p
    obtain ⟨v, hv, h⟩ := bind_eq_ok_iff.mp h
    obtain ⟨others, hothers, h⟩ := bind_eq_ok_iff.mp h
    cases h
    rcases List.mem_cons.mp hm with rfl | hm
    · exact ⟨Value.kind_of_read (within_eq_ok_iff.mp hv), (name, raw), List.mem_cons_self, rfl⟩
    · obtain ⟨hkind, p, hp, hname⟩ := ih hothers hm
      exact ⟨hkind, p, List.mem_cons_of_mem _ hp, hname⟩

/-- Every metric that is read has its key in the snapshot. -/
theorem mem_of_readSnapshot {types : List (String × SortedMap String)} {metrics : List Metric}
    (h : readSnapshot types = .ok metrics) {m : Metric} (hm : m ∈ metrics) :
    ∃ p ∈ types, p.1 = m.kind.name ∧ ∃ q ∈ p.2.entries, q.1 = m.name := by
  induction types generalizing metrics with
  | nil =>
    cases h
    cases hm
  | cons p types ih =>
    obtain ⟨type, names⟩ := p
    obtain ⟨kind, hkind, h⟩ := bind_eq_ok_iff.mp h
    obtain ⟨first, hfirst, h⟩ := bind_eq_ok_iff.mp h
    obtain ⟨others, hothers, h⟩ := bind_eq_ok_iff.mp h
    cases h
    rcases List.mem_append.mp hm with hm | hm
    · obtain ⟨rfl, hname⟩ := mem_of_readType hfirst hm
      exact ⟨_, List.mem_cons_self, Kind.read_eq_ok_iff.mp (within_eq_ok_iff.mp hkind), hname⟩
    · obtain ⟨p, hp, hkey⟩ := ih hothers hm
      exact ⟨p, List.mem_cons_of_mem _ hp, hkey⟩

/-! ## Filing -/

/-- File a new instance of a metric. -/
def fileNew (p : MemoryStore × Instances) (m : Metric) : MemoryStore × Instances :=
  (p.1.put m.kind m.name p.2.size, p.2.append [m])

theorem ofMetrics_eq_foldl (t : Instances) (metrics : List Metric) :
    ofMetrics t metrics = metrics.foldl fileNew (empty, t) := rfl

theorem filed_fileNew {p : MemoryStore × Instances} (hfiled : p.1.Filed p.2) (m : Metric) :
    (fileNew p m).1.Filed (fileNew p m).2 :=
  (hfiled.append [m]).put (Instances.get?_append_size p.2 m [])

theorem value?_fileNew {p : MemoryStore × Instances} (hfiled : p.1.Filed p.2) (m : Metric)
    (k : Kind) (n : String) :
    (fileNew p m).1.value? (fileNew p m).2 k n =
      if k = m.kind ∧ n = m.name then some m.value else p.1.value? p.2 k n := by
  unfold fileNew
  dsimp only
  rw [value?_put p.1 (Instances.get?_append_size p.2 m []), value?_append hfiled]

theorem filed_foldl_fileNew {p : MemoryStore × Instances} (hfiled : p.1.Filed p.2)
    (metrics : List Metric) :
    (metrics.foldl fileNew p).1.Filed (metrics.foldl fileNew p).2 := by
  induction metrics generalizing p with
  | nil => exact hfiled
  | cons m metrics ih => exact ih (filed_fileNew hfiled m)

/-- New instances put the entries of their metrics into the snapshot. -/
theorem snapshot_fileNew {p : MemoryStore × Instances} (hfiled : p.1.Filed p.2) (m : Metric) :
    (fileNew p m).1.snapshot (fileNew p m).2 = (p.1.snapshot p.2).put m.entry := by
  refine Snapshot.ext_value? (populated_snapshot _ _) ((populated_snapshot _ _).put _)
    fun type name => ?_
  rw [Snapshot.value?_put, value?_snapshot, value?_snapshot]
  cases htype : Kind.ofName? type with
  | none =>
    have hne : ¬ (type = m.entry.type ∧ name = m.entry.name) := by
      rintro ⟨rfl, -⟩
      rw [Metric.entry, Kind.ofName?_name] at htype
      cases htype
    rw [if_neg hne]
    rfl
  | some k =>
    obtain rfl := Kind.ofName?_eq_some_iff.mp htype
    have hkey : (k.name = m.entry.type ∧ name = m.entry.name) ↔ (k = m.kind ∧ name = m.name) :=
      and_congr_left' ⟨Kind.name_injective, fun h => h ▸ rfl⟩
    rw [Option.bind_some, Option.bind_some, value?_fileNew hfiled]
    simp only [hkey]
    split <;> rfl

theorem snapshot_foldl_fileNew {p : MemoryStore × Instances} (hfiled : p.1.Filed p.2)
    (metrics : List Metric) :
    (metrics.foldl fileNew p).1.snapshot (metrics.foldl fileNew p).2 =
      (metrics.map Metric.entry).foldl Snapshot.put (p.1.snapshot p.2) := by
  induction metrics generalizing p with
  | nil => rfl
  | cons m metrics ih =>
    rw [List.foldl_cons, List.map_cons, List.foldl_cons, ih (filed_fileNew hfiled m),
      snapshot_fileNew hfiled]

theorem snapshot_empty (t : Instances) : empty.snapshot t = SortedMap.empty := rfl

/-! ## Whole restorations -/

theorem filed_ofMetrics (t : Instances) (metrics : List Metric) :
    (ofMetrics t metrics).1.Filed (ofMetrics t metrics).2 := by
  rw [ofMetrics_eq_foldl]
  exact filed_foldl_fileNew (p := (empty, t)) (filed_empty t) metrics

/-- The instances that are there already do not count for what is restored. -/
theorem snapshot_ofMetrics (t : Instances) (metrics : List Metric) :
    (ofMetrics t metrics).1.snapshot (ofMetrics t metrics).2 =
      Snapshot.ofEntries (metrics.map Metric.entry) := by
  rw [ofMetrics_eq_foldl, snapshot_foldl_fileNew (p := (empty, t)) (filed_empty t), snapshot_empty]
  rfl

/-- No instance goes when others are made. -/
theorem size_le_size_ofMetrics (t : Instances) (metrics : List Metric) :
    t.size ≤ (ofMetrics t metrics).2.size := by
  rw [ofMetrics_eq_foldl]
  have hfold : ∀ p : MemoryStore × Instances, p.2.size ≤ (metrics.foldl fileNew p).2.size := by
    induction metrics with
    | nil => exact fun p => Nat.le_refl _
    | cons m metrics ih =>
      intro p
      refine Nat.le_trans ?_ (ih (fileNew p m))
      exact Nat.le_trans (Nat.le_add_right _ _) (Nat.le_of_eq (Instances.size_append p.2 [m]).symm)
  exact hfold (empty, t)

/-- Instances that are there already stay as they are. -/
theorem get?_ofMetrics {t : Instances} {h : Handle} {m : Metric} (hm : t.get? h = some m)
    (metrics : List Metric) : (ofMetrics t metrics).2.get? h = some m := by
  rw [ofMetrics_eq_foldl]
  have hfold : ∀ p : MemoryStore × Instances, p.2.get? h = some m →
      (metrics.foldl fileNew p).2.get? h = some m := by
    induction metrics with
    | nil => exact fun p hp => hp
    | cons first metrics ih =>
      intro p hp
      refine ih (fileNew p first) ?_
      exact (Instances.get?_append_of_lt (Instances.lt_size_of_get? hp) [first]).trans hp
  exact hfold (empty, t) hm

theorem restore_eq_ok_iff {t : Instances} {snapshot : Snapshot} {p : MemoryStore × Instances} :
    restore t snapshot = .ok p ↔
      ∃ metrics, readSnapshot (SortedMap.entries snapshot) = .ok metrics ∧
        ofMetrics t metrics = p := by
  unfold restore
  rw [bind_eq_ok_iff]
  refine exists_congr fun metrics => and_congr_right fun _ => ?_
  rw [Except.ok.injEq]

theorem filed_restore {t : Instances} {snapshot : Snapshot} {p : MemoryStore × Instances}
    (h : restore t snapshot = .ok p) : p.1.Filed p.2 := by
  obtain ⟨metrics, -, rfl⟩ := restore_eq_ok_iff.mp h
  exact filed_ofMetrics t metrics

/-- A snapshot that is restored once is restored again, among whatever instances, and gives the same. -/
theorem restore_again {t : Instances} {snapshot : Snapshot} {p : MemoryStore × Instances}
    (h : restore t snapshot = .ok p) (u : Instances) :
    ∃ q, restore u snapshot = .ok q ∧ q.1.snapshot q.2 = p.1.snapshot p.2 := by
  obtain ⟨metrics, hread, rfl⟩ := restore_eq_ok_iff.mp h
  refine ⟨ofMetrics u metrics, restore_eq_ok_iff.mpr ⟨metrics, hread, rfl⟩, ?_⟩
  rw [snapshot_ofMetrics, snapshot_ofMetrics]

/-- Every entry after a restoration is the entry of a metric whose key was in the snapshot. -/
theorem exists_mem_of_restore {t : Instances} {snapshot : Snapshot} {p : MemoryStore × Instances}
    (h : restore t snapshot = .ok p) {e : Snapshot.Entry} (he : e ∈ (p.1.snapshot p.2).toEntries) :
    (∃ m : Metric, m.entry = e) ∧ ∃ raw, ⟨e.type, e.name, raw⟩ ∈ snapshot.toEntries := by
  obtain ⟨metrics, hread, rfl⟩ := restore_eq_ok_iff.mp h
  rw [snapshot_ofMetrics, Snapshot.mem_toEntries_iff, Snapshot.value?_ofEntries] at he
  obtain ⟨m, hm, hentry⟩ := List.mem_map.mp (Snapshot.mem_of_last?_eq_some he)
  obtain ⟨p, hp, htype, q, hq, hname⟩ := mem_of_readSnapshot hread hm
  refine ⟨⟨m, hentry⟩, q.2, List.mem_flatMap.mpr ⟨p, hp, List.mem_map.mpr ⟨q, hq, ?_⟩⟩⟩
  have htype' : p.1 = e.type := htype.trans (congrArg Snapshot.Entry.type hentry)
  have hname' : q.1 = e.name := hname.trans (congrArg Snapshot.Entry.name hentry)
  exact congrArg₂ (fun type name => Snapshot.Entry.mk type name q.2) htype' hname'

/-- A canonical snapshot is restored, and the store that it gives has this snapshot. -/
theorem restore_of_canonical (t : Instances) {snapshot : Snapshot} (h : snapshot.Canonical) :
    ∃ s t', restore t snapshot = .ok (s, t') ∧ s.Filed t' ∧ s.snapshot t' = snapshot := by
  obtain ⟨metrics, hread, hentries⟩ := readSnapshot_of_canonical h
  refine ⟨(ofMetrics t metrics).1, (ofMetrics t metrics).2,
    restore_eq_ok_iff.mpr ⟨metrics, hread, rfl⟩, filed_ofMetrics t metrics, ?_⟩
  rw [snapshot_ofMetrics, hentries]
  exact Snapshot.ofEntries_toEntries_of_populated h.populated

end MemoryStore

end Telemetry

-- SUMMARY: Restoring a snapshot replaces everything that is stored by new instances, or it changes nothing.
import Mathlib
import Telemetry.Proofs.Store.Offences
import Telemetry.Proofs.Store.Restoring
import Telemetry.Store.Storage

/-!
# Replacement

A snapshot that is read is stored under the same keys, with the canonical text in place of every value: the
text that is written for what has been read. The store then has new instances only. What was stored before
is left to its holders, and the snapshot of the store no longer shows what they do with it.
-/

namespace Telemetry

-- ---------------------------------------------------------------------------
-- Canonical texts of values
-- ---------------------------------------------------------------------------

namespace Snapshot

/-- The text that is written for the value that a text reads as under a type. A text that reads as none is
    left as it is. -/
def canonicalValue (type raw : String) : String :=
  match (Kind.ofName? type).map (Value.read · raw) with
  | some (.ok v) => v.text
  | _ => raw

theorem canonicalValue_of_read {kind : Kind} {raw : String} {v : Value}
    (h : Value.read kind raw = .ok v) : canonicalValue kind.name raw = v.text := by
  rw [canonicalValue, Kind.ofName?_name, Option.map_some, h]

/-- The entry with the canonical text of its value. -/
def Entry.canonical (e : Entry) : Entry :=
  { e with value := canonicalValue e.type e.value }

/-- The snapshot with the canonical text of every value. -/
def canonical (s : Snapshot) : Snapshot :=
  ⟨(SortedMap.entries s).map fun p => (p.1, p.2.map (canonicalValue p.1)),
    List.pairwise_map.mpr (SortedMap.ascending s)⟩

@[simp] theorem toEntries_canonical (s : Snapshot) :
    s.canonical.toEntries = s.toEntries.map Entry.canonical := by
  unfold toEntries canonical
  rw [List.flatMap_map, List.map_flatMap]
  refine List.flatMap_congr fun p _ => ?_
  simp only [SortedMap.map, List.map_map]
  rfl

@[simp] theorem value?_canonical (s : Snapshot) (type name : String) :
    s.canonical.value? type name = (s.value? type name).map (canonicalValue type) := by
  refine Option.ext fun value => ?_
  have hmem := mem_toEntries_iff (s := s.canonical) (e := ⟨type, name, value⟩)
  rw [toEntries_canonical, List.mem_map] at hmem
  rw [← hmem, Option.map_eq_some_iff]
  constructor
  · rintro ⟨e, he, heq⟩
    cases heq
    exact ⟨e.value, mem_toEntries_iff.mp he, rfl⟩
  · rintro ⟨raw, hraw, rfl⟩
    exact ⟨⟨type, name, raw⟩, mem_toEntries_iff.mpr hraw, rfl⟩

end Snapshot

namespace MemoryStore

open Snapshot

-- ---------------------------------------------------------------------------
-- What is stored
-- ---------------------------------------------------------------------------

theorem entries_of_readType {kind : Kind} {names : List (String × String)} {metrics : List Metric}
    (h : readType kind.name kind names = .ok metrics) :
    metrics.map Metric.entry = names.map fun q => Entry.canonical ⟨kind.name, q.1, q.2⟩ := by
  induction names generalizing metrics with
  | nil =>
    cases h
    rfl
  | cons q names ih =>
    obtain ⟨name, raw⟩ := q
    obtain ⟨v, hv, h⟩ := bind_eq_ok_iff.mp h
    obtain ⟨others, hothers, h⟩ := bind_eq_ok_iff.mp h
    cases h
    have hread := within_eq_ok_iff.mp hv
    obtain rfl := Value.kind_of_read hread
    rw [List.map_cons, List.map_cons, ih hothers, Entry.canonical, canonicalValue_of_read hread]
    rfl

/-- What is read of a snapshot are its entries with the canonical texts. -/
theorem entries_of_readSnapshot {types : List (String × SortedMap String)} {metrics : List Metric}
    (h : readSnapshot types = .ok metrics) :
    metrics.map Metric.entry =
      types.flatMap fun p => p.2.entries.map fun q => Entry.canonical ⟨p.1, q.1, q.2⟩ := by
  induction types generalizing metrics with
  | nil =>
    cases h
    rfl
  | cons p types ih =>
    obtain ⟨type, names⟩ := p
    obtain ⟨kind, hkind, h⟩ := bind_eq_ok_iff.mp h
    obtain ⟨first, hfirst, h⟩ := bind_eq_ok_iff.mp h
    obtain ⟨others, hothers, h⟩ := bind_eq_ok_iff.mp h
    cases h
    obtain rfl := Kind.read_eq_ok_iff.mp (within_eq_ok_iff.mp hkind)
    rw [List.map_append, entries_of_readType hfirst, ih hothers, List.flatMap_cons]

/-- The snapshot of a store that was restored is what it was restored from, with the canonical texts and
    without types that have no names. -/
theorem snapshot_restore {t : Instances} {s : Snapshot} {p : MemoryStore × Instances}
    (h : restore t s = .ok p) : p.1.snapshot p.2 = s.canonical.withoutBareTypes := by
  obtain ⟨metrics, hread, rfl⟩ := restore_eq_ok_iff.mp h
  have hentries : metrics.map Metric.entry = s.canonical.toEntries := by
    rw [entries_of_readSnapshot hread, toEntries_canonical, toEntries, List.map_flatMap]
    simp only [List.map_map]
    rfl
  rw [snapshot_ofMetrics, hentries, ofEntries_toEntries]

-- ---------------------------------------------------------------------------
-- New instances and old ones
-- ---------------------------------------------------------------------------

variable {s : MemoryStore} {t : Instances}

theorem size_le_of_find?_foldl_fileNew {size : Nat} {p : MemoryStore × Instances}
    (hsize : size ≤ p.2.size) (hnew : ∀ k n h, p.1.find? k n = some h → size ≤ h)
    {metrics : List Metric} {k : Kind} {n : String} {h : Handle}
    (hfind : (metrics.foldl fileNew p).1.find? k n = some h) : size ≤ h := by
  induction metrics generalizing p with
  | nil => exact hnew k n h hfind
  | cons m metrics ih =>
    refine ih (p := fileNew p m) ?_ (fun k n h hfind => ?_) hfind
    · exact Nat.le_trans hsize (by simp [fileNew])
    · rw [fileNew, find?_put] at hfind
      split at hfind
      · cases hfind
        exact hsize
      · exact hnew k n h hfind

/-- A store that is made anew has none of the instances that were there before. -/
theorem size_le_of_find?_ofMetrics {metrics : List Metric} {k : Kind} {n : String} {h : Handle}
    (hfind : (ofMetrics t metrics).1.find? k n = some h) : t.size ≤ h := by
  rw [ofMetrics_eq_foldl] at hfind
  exact size_le_of_find?_foldl_fileNew (p := (empty, t)) (Nat.le_refl _) (by simp) hfind

/-- An update of an instance that a store does not have is not seen in its snapshot. -/
theorem snapshot_update_of_find?_ne {h : Handle} (hne : ∀ k n, s.find? k n ≠ some h)
    (f : Value → Value) : s.snapshot (t.update h f) = s.snapshot t := by
  refine snapshot_eq_of_value?_eq fun kind name => ?_
  unfold value?
  cases hfind : s.find? kind name with
  | none => rfl
  | some other =>
    rw [Option.bind_some, Option.bind_some, Instances.get?_update_of_ne]
    rintro rfl
    exact hne kind name hfind

theorem snapshot_foldl_update {updates : List (Handle × (Value → Value))}
    (hne : ∀ u ∈ updates, ∀ k n, s.find? k n ≠ some u.1) :
    s.snapshot (updates.foldl (fun t u => t.update u.1 u.2) t) = s.snapshot t := by
  induction updates generalizing t with
  | nil => rfl
  | cons u updates ih =>
    rw [List.foldl_cons, ih fun u hu => hne u (List.mem_cons_of_mem _ hu),
      snapshot_update_of_find?_ne (hne u List.mem_cons_self)]

end MemoryStore

-- ---------------------------------------------------------------------------
-- All or nothing
-- ---------------------------------------------------------------------------

namespace Storage

variable {s after : Storage} {snapshot : Snapshot}

theorem restore_of_ok {p : MemoryStore × Instances}
    (h : MemoryStore.restore s.instances snapshot = .ok p) :
    s.restore snapshot = (.ok (), { s with memory := p.1, instances := p.2 }) := by
  rw [restore, h]

theorem restore_of_error {e : Error} (h : MemoryStore.restore s.instances snapshot = .error e) :
    s.restore snapshot = (.error e, s) := by
  rw [restore, h]

theorem restore_eq_ok_iff :
    s.restore snapshot = (.ok (), after) ↔ ∃ p, MemoryStore.restore s.instances snapshot = .ok p ∧
      { s with memory := p.1, instances := p.2 } = after := by
  cases hrestore : MemoryStore.restore s.instances snapshot with
  | ok p =>
    rw [restore_of_ok hrestore]
    simp
  | error e =>
    rw [restore_of_error hrestore]
    simp

/-- What is in memory after a restoration is what was restored, in canonical spelling. -/
theorem snapshot_of_restore (h : s.restore snapshot = (.ok (), after)) :
    after.snapshot = snapshot.canonical.withoutBareTypes := by
  obtain ⟨p, hp, rfl⟩ := restore_eq_ok_iff.mp h
  exact MemoryStore.snapshot_restore hp

/-- What is stored after a restoration was not there before. -/
theorem get?_eq_none_of_restore (h : s.restore snapshot = (.ok (), after)) {kind : Kind}
    {name : String} {handle : Handle} (hfind : after.memory.find? kind name = some handle) :
    s.instances.get? handle = none := by
  obtain ⟨p, hp, rfl⟩ := restore_eq_ok_iff.mp h
  obtain ⟨metrics, -, rfl⟩ := MemoryStore.restore_eq_ok_iff.mp hp
  exact Instances.get?_eq_none_iff.mpr (MemoryStore.size_le_of_find?_ofMetrics hfind)

/-- What was there before a restoration is left as it was. -/
theorem get?_of_restore (h : s.restore snapshot = (.ok (), after)) {handle : Handle} {m : Metric}
    (hm : s.instances.get? handle = some m) : after.instances.get? handle = some m := by
  obtain ⟨p, hp, rfl⟩ := restore_eq_ok_iff.mp h
  obtain ⟨metrics, -, rfl⟩ := MemoryStore.restore_eq_ok_iff.mp hp
  exact MemoryStore.get?_ofMetrics hm metrics

/-- What holders of old instances do is not seen after a restoration. -/
theorem snapshot_foldl_update_of_restore (h : s.restore snapshot = (.ok (), after))
    {updates : List (Handle × (Value → Value))}
    (hold : ∀ u ∈ updates, (s.instances.get? u.1).isSome) :
    after.memory.snapshot (updates.foldl (fun t u => t.update u.1 u.2) after.instances) =
      after.snapshot := by
  refine MemoryStore.snapshot_foldl_update fun u hu k n hfind => ?_
  have hthere := hold u hu
  rw [get?_eq_none_of_restore h hfind] at hthere
  cases hthere

/-- From whatever state a snapshot is restored: this succeeds if and only if all of its types are counters
    and gauges and all of its values are read. Then the store has the keys of the snapshot with the canonical
    texts of their values, by instances that were not there before; those that were there are as they were,
    and no update of them is seen in the store any more. If it fails nothing has changed, and the error is
    that of the offence that comes before all others in the order of the bytes of types and names, where a
    type that is none comes before its values. -/
theorem restore_replaces_all_or_nothing (s : Storage) (snapshot : Snapshot) :
    let result := (s.restore snapshot).1
    let after := (s.restore snapshot).2
    (result = .ok () ↔
      (∀ type ∈ SortedMap.keys snapshot, type = "counter" ∨ type = "gauge") ∧
        ∀ kind name raw, snapshot.value? (Kind.name kind) name = some raw →
          ∃ v, Value.read kind raw = .ok v) ∧
    (result = .ok () →
      (∀ type name, after.snapshot.value? type name =
        (snapshot.value? type name).map (Snapshot.canonicalValue type)) ∧
      (∀ kind name h, after.memory.find? kind name = some h → s.instances.get? h = none) ∧
      (∀ h m, s.instances.get? h = some m → after.instances.get? h = some m) ∧
      ∀ updates : List (Handle × (Value → Value)),
        (∀ u ∈ updates, (s.instances.get? u.1).isSome) →
        after.memory.snapshot (updates.foldl (fun t u => t.update u.1 u.2) after.instances) =
          after.snapshot) ∧
    ∀ e, result = .error e → after = s ∧
      ∃ o, snapshot.Offends o ∧ o.error = e ∧
        ∀ o', snapshot.Offends o' → o' = o ∨ o.Precedes o' := by
  intro result after
  rcases MemoryStore.restore_cases s.instances snapshot with ⟨hnone, p, hp⟩ |
    ⟨o, ho, hfirst, herror⟩
  · have hresult : result = .ok () := congrArg Prod.fst (restore_of_ok hp)
    have hrestore : s.restore snapshot = (.ok (), after) := Prod.ext hresult rfl
    refine ⟨iff_of_true hresult (Snapshot.forall_not_offends_iff.mp hnone),
      fun _ => ⟨fun type name => ?_, fun kind name h => get?_eq_none_of_restore hrestore,
        fun h m => get?_of_restore hrestore, fun updates => snapshot_foldl_update_of_restore hrestore⟩,
      fun e he => ?_⟩
    · rw [snapshot_of_restore hrestore, Snapshot.value?_withoutBareTypes, Snapshot.value?_canonical]
    · rw [hresult] at he
      cases he
  · have hrestore := restore_of_error herror
    have hresult : result = .error o.error := congrArg Prod.fst hrestore
    have hne : result ≠ .ok () := by
      rw [hresult]
      exact (nomatch ·)
    refine ⟨iff_of_false hne fun h => Snapshot.forall_not_offends_iff.mpr h o ho,
      fun h => absurd h hne, fun e he => ⟨congrArg Prod.snd hrestore, o, ho, ?_, hfirst⟩⟩
    rw [hresult] at he
    exact Except.error.inj he

/-- A storage with one counter. -/
def oneCounter : Storage :=
  { Storage.start ⟨#[⟨"a", .counter 1⟩]⟩ (.file ⟨none⟩) false .empty with
    memory := MemoryStore.empty.put .counter "a" 0 }

/-- A counter that is seven, in a spelling that is not the canonical one. -/
def seven : Snapshot :=
  .ofEntries [⟨"counter", "a", "+007"⟩]

/-- A type that is none, and before it in the order of the bytes a value that is no number. -/
def twiceOffensive : Snapshot :=
  .ofEntries [⟨"timer", "c", "1"⟩, ⟨"counter", "b", "x"⟩, ⟨"counter", "a", "7"⟩]

theorem restore_replaces_all_or_nothing_oneCounter :
    (oneCounter.restore seven).1 = .ok () ∧
      (oneCounter.restore seven).2.snapshot.value? "counter" "a" = some "7" ∧
      (oneCounter.restore twiceOffensive).1 = .error ⟨["parse value of counter/b"],
        .parsing "counter value \"x\": invalid digit found in string"⟩ ∧
      (oneCounter.restore twiceOffensive).2 = oneCounter := by
  have hok : (oneCounter.restore seven).1 = .ok () := by decide +kernel
  have herror : (oneCounter.restore twiceOffensive).1 = .error ⟨["parse value of counter/b"],
      .parsing "counter value \"x\": invalid digit found in string"⟩ := by decide +kernel
  refine ⟨hok, ?_, herror, ?_⟩
  · refine (((restore_replaces_all_or_nothing oneCounter seven).2.1 hok).1 "counter" "a").trans ?_
    decide +kernel
  · exact ((restore_replaces_all_or_nothing oneCounter twiceOffensive).2.2 _ herror).1

end Storage

end Telemetry

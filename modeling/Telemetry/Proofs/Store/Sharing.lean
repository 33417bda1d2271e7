-- SUMMARY: A store whose instances others hold and change: in every state it can reach, filing, look-ups, snapshot and size agree.
import Telemetry.Proofs.Store.Adding
import Telemetry.Proofs.Store.Restoring

/-!
# Shared instances in a store

The instances that a store files are shared: whoever holds one may change its value at any time, may add
it again, and may add it to the store under whose key it stands already. No such change touches the kind
or the name of an instance, and so the filing of instances outlives all of them. From the filing it
follows that the ways of reading a store agree, and that an addition reaches no instance but those under
the keys of its batch.
-/

namespace Telemetry.MemoryStore

/-! ## Changes -/

/-- What happens to a store and to the instances that it shares with others. -/
inductive Change where
  /-- Somebody makes a new instance. -/
  | make (m : Metric)
  | add (handles : List Handle)
  | restore (snapshot : Snapshot)
  /-- A holder sets an instance from a number. -/
  | set (h : Handle) (x : Binary64)
  /-- A holder applies an update to an instance. -/
  | apply (h : Handle) (update : Value)
  /-- A holder takes away from an instance what has been sent. -/
  | settle (h : Handle) (sent : Value)
  /-- A holder sets an instance back to the start. -/
  | reset (h : Handle)

/-- The store and the instances after a change. A restoration that fails changes nothing. -/
def change (p : MemoryStore × Instances) : Change → MemoryStore × Instances
  | .make m => (p.1, (p.2.alloc m).2)
  | .add handles => (p.1.add p.2 handles).2
  | .restore snapshot =>
    match MemoryStore.restore p.2 snapshot with
    | .ok restored => restored
    | .error _ => p
  | .set h x => (p.1, p.2.update h (Value.set x))
  | .apply h update => (p.1, p.2.update h (Value.apply update))
  | .settle h sent => (p.1, p.2.update h (Value.settle sent))
  | .reset h => (p.1, p.2.update h Value.reset)

/-- The store and the instances after a list of changes. -/
def changes (p : MemoryStore × Instances) (cs : List Change) : MemoryStore × Instances :=
  cs.foldl change p

/-- The filing outlives every change. -/
theorem filed_change {p : MemoryStore × Instances} (hfiled : p.1.Filed p.2) (c : Change) :
    (change p c).1.Filed (change p c).2 := by
  cases c with
  | make m =>
    simp only [change, Instances.alloc_eq]
    exact hfiled.append [m]
  | add handles => exact filed_add hfiled handles
  | restore snapshot =>
    simp only [change]
    split
    · rename_i restored hrestore
      exact filed_restore hrestore
    · exact hfiled
  | set h x => exact hfiled.update h (Value.kind_set x)
  | apply h update => exact hfiled.update h (Value.kind_apply update)
  | settle h sent => exact hfiled.update h (Value.kind_settle sent)
  | reset h => exact hfiled.update h Value.kind_reset

theorem filed_changes {p : MemoryStore × Instances} (hfiled : p.1.Filed p.2) (cs : List Change) :
    (changes p cs).1.Filed (changes p cs).2 := by
  induction cs generalizing p with
  | nil => exact hfiled
  | cons c cs ih => exact ih (filed_change hfiled c)

/-! ## Reading -/

variable {s : MemoryStore} {t : Instances}

/-- A look-up finds the keys of the snapshot, with the instance whose text the snapshot has there. -/
theorem get_eq (hfiled : s.Filed t) (type name : String) :
    match (s.snapshot t).value? type name with
    | some text => ∃ h m, s.get type name = .ok h ∧ t.get? h = some m ∧ m.value.text = text
    | none => s.get type name = fail (.notFound type name) := by
  rw [value?_snapshot]
  unfold MemoryStore.get
  cases hkind : Kind.ofName? type with
  | none => rfl
  | some kind =>
    rw [Option.bind_some, Option.bind_some]
    cases hfind : s.find? kind name with
    | none =>
      rw [(value?_eq_none_iff hfiled).mpr hfind]
      rfl
    | some h =>
      obtain ⟨m, hm, -, -⟩ := hfiled kind name h hfind
      rw [value?_of_find? hfind hm]
      exact ⟨h, m, rfl, hm, rfl⟩

/-- Every filed instance has an entry. -/
theorem length_entriesOfKind (hfiled : s.Filed t) (kind : Kind) :
    (s.entriesOfKind t kind).length = (s.ofKind kind).size := by
  refine List.filterMap_length_eq_length.mpr ?_
  rintro ⟨name, h⟩ hmem
  obtain ⟨m, hm, -, -⟩ := hfiled kind name h (SortedMap.mem_entries_iff.mp hmem)
  dsimp only
  rw [hm]
  rfl

theorem nodup_entriesOfKind (s : MemoryStore) (t : Instances) (kind : Kind) :
    (s.entriesOfKind t kind).Nodup := by
  unfold entriesOfKind
  refine List.Pairwise.filterMap _ ?_ (s.ofKind kind).ascending
  intro a b hlt e he e' he' heq
  obtain ⟨m, -, rfl⟩ := Option.map_eq_some_iff.mp he
  obtain ⟨m', -, rfl⟩ := Option.map_eq_some_iff.mp he'
  exact absurd (congrArg Snapshot.Entry.name heq) (String.ne_of_lt hlt)

/-- The size of a store is the number of entries of its snapshot. -/
theorem length_toEntries_snapshot (hfiled : s.Filed t) :
    (s.snapshot t).toEntries.length = s.size := by
  have hnodup : (s.entriesOfKind t .counter ++ s.entriesOfKind t .gauge).Nodup := by
    refine List.nodup_append.mpr
      ⟨nodup_entriesOfKind s t .counter, nodup_entriesOfKind s t .gauge, ?_⟩
    rintro e he _ he' rfl
    have htype := (mem_entriesOfKind_iff.mp he).1.symm.trans (mem_entriesOfKind_iff.mp he').1
    exact nomatch Kind.name_injective htype
  have hperm : (s.snapshot t).toEntries.Perm
      (s.entriesOfKind t .counter ++ s.entriesOfKind t .gauge) := by
    refine (List.perm_ext_iff_of_nodup (Snapshot.nodup_toEntries _) hnodup).mpr fun e => ?_
    rw [Snapshot.mem_toEntries_iff, value?_snapshot, mem_snapshotEntries_iff]
  rw [hperm.length_eq, List.length_append, length_entriesOfKind hfiled,
    length_entriesOfKind hfiled]
  rfl

/-! ## What an addition reaches -/

/-- The updates that an addition applies to stored values, each with the value that it is applied to. -/
def applied (s : MemoryStore) (t : Instances) : List Handle → List (Value × Value)
  | [] => []
  | h :: rest =>
    let here := do
      let m ← t.get? h
      let stored ← s.find? m.kind m.name
      let current ← t.get? stored
      some (m.value, current.value)
    here.toList ++ (s.addOne t h).2.1.applied (s.addOne t h).2.2 rest

/-- An addition applies updates to values of their own kind alone. -/
theorem kind_eq_of_mem_applied (hfiled : s.Filed t) {handles : List Handle} {p : Value × Value}
    (h : p ∈ s.applied t handles) : p.1.kind = p.2.kind := by
  induction handles generalizing s t with
  | nil => cases h
  | cons given handles ih =>
    rcases List.mem_append.mp h with h | h
    · obtain ⟨m, -, h⟩ := Option.bind_eq_some_iff.mp (Option.mem_toList.mp h)
      obtain ⟨stored, hfind, h⟩ := Option.bind_eq_some_iff.mp h
      obtain ⟨current, hcurrent, h⟩ := Option.bind_eq_some_iff.mp h
      obtain ⟨m', hm', hkind, -⟩ := hfiled _ _ _ hfind
      rw [hcurrent] at hm'
      cases hm'
      cases h
      exact hkind.symm
    · exact ih (filed_addOne hfiled given) h

/-- The instance behind a handle after an addition was there before, with the same kind and name. -/
theorem get?_of_addOne (s : MemoryStore) (h : Handle) {other : Handle} {m' : Metric}
    (hm' : (s.addOne t h).2.2.get? other = some m') :
    ∃ m, t.get? other = some m ∧ m'.kind = m.kind ∧ m'.name = m.name := by
  cases hm : t.get? other with
  | none =>
    have hsize := Instances.get?_eq_none_iff.mp hm
    rw [← size_addOne s t h] at hsize
    rw [Instances.get?_eq_none_iff.mpr hsize] at hm'
    cases hm'
  | some m =>
    obtain ⟨m'', hm'', hkind, hname⟩ := get?_addOne s h hm
    rw [hm'] at hm''
    cases hm''
    exact ⟨m, rfl, hkind, hname⟩

/-- Adding one instance changes none but the one that stands under its key. -/
theorem find?_of_addOne_ne {h other : Handle}
    (hne : (s.addOne t h).2.2.get? other ≠ t.get? other) :
    ∃ m, t.get? h = some m ∧ (s.addOne t h).2.1.find? m.kind m.name = some other := by
  cases hm : t.get? h with
  | none =>
    unfold addOne at hne
    rw [hm] at hne
    exact absurd rfl hne
  | some m =>
    refine ⟨m, rfl, ?_⟩
    cases hfind : s.find? m.kind m.name with
    | none =>
      rw [addOne_of_new hm hfind] at hne
      exact absurd rfl hne
    | some stored =>
      rw [addOne_of_stored hm hfind, Instances.get?_update] at hne
      rw [addOne_of_stored hm hfind]
      by_cases heq : stored = other
      · rw [← heq]
        exact hfind
      · rw [if_neg heq] at hne
        exact absurd rfl hne

/-- An addition changes no instance but those that stand under the keys of its batch. -/
theorem find?_of_add_ne {handles : List Handle} {other : Handle}
    (hne : (s.add t handles).2.2.get? other ≠ t.get? other) :
    ∃ given ∈ handles, ∃ m, t.get? given = some m ∧
      (s.add t handles).2.1.find? m.kind m.name = some other := by
  induction handles generalizing s t with
  | nil => exact absurd rfl hne
  | cons given handles ih =>
    rw [add_cons] at hne ⊢
    by_cases hfirst : (s.addOne t given).2.2.get? other = t.get? other
    · rw [← hfirst] at hne
      obtain ⟨later, hlater, m', hm', hfind⟩ := ih hne
      obtain ⟨m, hm, hkind, hname⟩ := get?_of_addOne s given hm'
      exact ⟨later, List.mem_cons_of_mem _ hlater, m, hm, hkind ▸ hname ▸ hfind⟩
    · obtain ⟨m, hm, hfind⟩ := find?_of_addOne_ne hfirst
      exact ⟨given, List.mem_cons_self, m, hm, find?_add_of_some handles hfind⟩

/-! ## Every state -/

/-- In every state that changes lead to from an empty store, among instances that others may hold: each
stored instance stands under its own kind and name and under no other key; a look-up finds exactly the
keys of the snapshot, with the instance whose text is there, and reports all others, unknown types among
them, as not found; the size is the number of entries of the snapshot; and an addition applies updates to
values of their own kind alone and changes no instance but those under the keys of its batch. -/
theorem changes_keep_store_consistent (t : Instances) (cs : List Change) :
    let s := (changes (empty, t) cs).1
    let t := (changes (empty, t) cs).2
    (∀ k n h, s.find? k n = some h → ∃ m, t.get? h = some m ∧ m.kind = k ∧ m.name = n) ∧
    (∀ k n k' n' h, s.find? k n = some h → s.find? k' n' = some h → k = k' ∧ n = n') ∧
    (∀ type name,
      match (s.snapshot t).value? type name with
      | some text => ∃ h m, s.get type name = .ok h ∧ t.get? h = some m ∧ m.value.text = text
      | none => s.get type name = fail (.notFound type name)) ∧
    s.size = (s.snapshot t).toEntries.length ∧
    ∀ handles,
      (∀ p ∈ s.applied t handles, p.1.kind = p.2.kind) ∧
      ∀ h, (s.add t handles).2.2.get? h ≠ t.get? h →
        ∃ given ∈ handles, ∃ m, t.get? given = some m ∧
          (s.add t handles).2.1.find? m.kind m.name = some h := by
  intro s t
  have hfiled : s.Filed t := filed_changes (filed_empty _) cs
  refine ⟨hfiled, fun k n k' n' h => hfiled.key_unique, get_eq hfiled,
    (length_toEntries_snapshot hfiled).symm, fun handles => ⟨?_, ?_⟩⟩
  · exact fun p hp => kind_eq_of_mem_applied hfiled hp
  · exact fun h hne => find?_of_add_ne hne

end Telemetry.MemoryStore

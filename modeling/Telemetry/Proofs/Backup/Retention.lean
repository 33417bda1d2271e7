-- SUMMARY: What backups retain: after a write that succeeds, the entries of the metrics that a backup retains are read back.
import Mathlib
import Telemetry.Proofs.Backup.Database
import Telemetry.Proofs.Store.Restoring

/-!
# What backups retain

A backup that is switched off accepts every write and drops it, a file has no records without names, and a
database keeps binary64 numbers. Everything else is retained: once a write has succeeded, reading the
backup gives the snapshot from before with the entries that were written. A file that is restored keeps
the new snapshot alone, a database keeps rows under other keys beside it.
-/

namespace Telemetry

/-- The text of a value reads as the number that the value is converted to. -/
theorem Value.readReal_text (v : Value) : readReal v.text = .ok v.real := by
  cases v with
  | counter count => exact readReal_toString count
  | gauge level => exact Telemetry.readReal_text level

namespace Backup

open Database

/-- The entry of a metric is read back once it has been written. -/
def Retains : Backup → Metric → Prop
  | file ⟨none⟩, _ => False
  | file ⟨some _⟩, m => m.name ≠ ""
  | database _, m => m.value ≠ .gauge .nan ∧ m.value.kept = m.value

/-! ## Files -/

namespace FileBackup

/-- A disk from which a snapshot is read and which takes writes keeps the snapshot. -/
theorem keeps_of_snapshot {path : String} {d : Disk} {s : Snapshot} (hwritable : Writable path d)
    (hread : (⟨some path⟩ : FileBackup).snapshot d = .ok s) : Keeps path d s :=
  ⟨hwritable, snapshot_eq_ok_iff.mp hread⟩

theorem entry?_ne_directory_of_snapshot {path : String} {d : Disk} {s : Snapshot}
    (hread : (⟨some path⟩ : FileBackup).snapshot d = .ok s) : d.entry? path ≠ some .directory := by
  obtain ⟨entries, hrecords, -⟩ := snapshot_eq_ok_iff.mp hread
  exact entry?_ne_directory_of_records hrecords

theorem snapshot_of_add {b : FileBackup} {batch : List Metric} {d d' : Disk} {s : Snapshot}
    (hread : b.snapshot d = .ok s) (hretains : ∀ m ∈ batch, (file b).Retains m)
    (hadd : b.add batch d = (.ok (), d')) :
    b.snapshot d' = .ok ((batch.map Metric.entry).foldl Snapshot.put s) := by
  obtain ⟨path⟩ := b
  cases path with
  | none =>
    cases batch with
    | nil =>
      cases hadd
      exact hread
    | cons m batch => exact (hretains m List.mem_cons_self).elim
  | some path =>
    obtain ⟨entries, hrecords, -⟩ := snapshot_eq_ok_iff.mp hread
    have hwritable : Writable path d := by
      by_contra hwritable
      obtain ⟨e, hwrite⟩ := write_of_not_writable (entry?_ne_directory_of_records hrecords)
        hwritable ((entries.map Record.ofEntry).filter (fun r => !isReplaced batch r) ++
          batch.map .ofMetric)
      unfold FileBackup.add at hadd
      rw [hrecords] at hadd
      simp only [within_ok, hwrite] at hadd
      cases hadd
    obtain ⟨d₁, hadd₁, hkeeps⟩ := (keeps_of_snapshot hwritable hread).add fun m hm =>
      ⟨Kind.name_ne_empty m.kind, hretains m hm, m.value.text_ne_empty⟩
    rw [hadd₁] at hadd
    cases hadd
    exact hkeeps.snapshot

theorem snapshot_of_restore {b : FileBackup} {snapshot s : Snapshot} {d d' : Disk}
    (hread : b.snapshot d = .ok s) (hcanonical : snapshot.Canonical)
    (hretains : ∀ m : Metric, m.entry ∈ snapshot.toEntries → (file b).Retains m)
    (hrestore : b.restore snapshot d = (.ok (), d')) : b.snapshot d' = .ok snapshot := by
  obtain ⟨path⟩ := b
  cases path with
  | none =>
    have hempty : snapshot = SortedMap.empty := by
      refine Snapshot.ext_value? hcanonical.populated Snapshot.populated_empty fun type name => ?_
      rw [Snapshot.value?_empty, Option.eq_none_iff_forall_ne_some]
      intro text htext
      have hmem : (⟨type, name, text⟩ : Snapshot.Entry) ∈ snapshot.toEntries :=
        Snapshot.mem_toEntries_iff.mpr htext
      obtain ⟨m, hm⟩ := hcanonical.entry _ hmem
      exact hretains m (hm ▸ hmem)
    cases hrestore
    rw [hempty]
    rfl
  | some path =>
    have hwritable : Writable path d := by
      by_contra hwritable
      obtain ⟨e, hwrite⟩ := write_of_not_writable (entry?_ne_directory_of_snapshot hread)
        hwritable (snapshot.toEntries.map .ofEntry)
      unfold FileBackup.restore at hrestore
      simp only [hwrite] at hrestore
      cases hrestore
    obtain ⟨d₁, hrestore₁, hkeeps⟩ := Keeps.restore_of_populated hwritable hcanonical.populated
      fun e he => by
      obtain ⟨m, rfl⟩ := hcanonical.entry e he
      exact ⟨Kind.name_ne_empty m.kind, hretains m he, m.value.text_ne_empty⟩
    rw [hrestore₁] at hrestore
    cases hrestore
    exact hkeeps.snapshot

end FileBackup

/-! ## Databases -/

namespace Tabular

/-- What is read from tables is the snapshot with the texts of all their values. -/
theorem readRows_eq_ok_iff {t : Tables} (h : t.Sound) {s : Snapshot} :
    readRows t = .ok s ↔ s.Populated ∧ ∀ type name,
      (s.value? type name).map some = (t.value? type name).map (·.map (valueText type)) := by
  refine ⟨value?_of_readRows h, fun ⟨hpopulated, hvalues⟩ => ?_⟩
  obtain ⟨s', hread⟩ := exists_readRows h fun type name hnone => by
    have hvalue := hvalues type name
    rw [hnone] at hvalue
    obtain ⟨text, -, htext⟩ := Option.map_eq_some_iff.mp hvalue
    cases htext
  obtain ⟨hpopulated', hvalues'⟩ := value?_of_readRows h hread
  have hsame : s' = s := Snapshot.ext_value? hpopulated' hpopulated fun type name =>
    Option.map_injective (Option.some_injective _)
      ((hvalues' type name).trans (hvalues type name).symm)
  rw [hread, hsame]

theorem readRows_upsert {t : Tables} (h : t.Sound) {s : Snapshot} (hread : readRows t = .ok s)
    {m : Metric} (hnumber : m.value ≠ .gauge .nan) (hkept : m.value.kept = m.value) :
    readRows (t.upsert (fullRowOf m)) = .ok (s.put m.entry) := by
  obtain ⟨hpopulated, hvalues⟩ := value?_of_readRows h hread
  refine (readRows_eq_ok_iff (h.upsert _)).mpr ⟨hpopulated.put _, fun type name => ?_⟩
  rw [Snapshot.value?_put, Tables.value?_upsert h]
  change Option.map some (if type = m.kind.name ∧ name = m.name then some m.value.text
    else s.value? type name) = Option.map _ (if type = m.kind.name ∧ name = m.name then _ else _)
  split
  · rename_i hkey
    have htext := map_valueText_storedReal hnumber
    rw [hkept] at htext
    obtain ⟨rfl, -⟩ := hkey
    exact congrArg some htext.symm
  · exact hvalues type name

/-- Writing the rows of metrics puts their entries into the snapshot that is read. -/
theorem readRows_foldl_upsert {t : Tables} (h : t.Sound) {s : Snapshot} (hread : readRows t = .ok s)
    {metrics : List Metric}
    (hretained : ∀ m ∈ metrics, m.value ≠ .gauge .nan ∧ m.value.kept = m.value) :
    readRows ((metrics.map fullRowOf).foldl Tables.upsert t) =
      .ok ((metrics.map Metric.entry).foldl Snapshot.put s) := by
  induction metrics generalizing t s with
  | nil => exact hread
  | cons m metrics ih =>
    obtain ⟨hnumber, hkept⟩ := hretained m List.mem_cons_self
    exact ih (h.upsert _) (readRows_upsert h hread hnumber hkept)
      fun m hm => hretained m (List.mem_cons_of_mem _ hm)

/-- The entries of metrics are turned into the rows of the metrics. -/
theorem mapM_rowOfEntry (metrics : List Metric) :
    (metrics.map Metric.entry).mapM rowOfEntry = .ok (metrics.map rowOf) := by
  induction metrics with
  | nil => rfl
  | cons m metrics ih =>
    have hrow : rowOfEntry m.entry = .ok (rowOf m) := by
      unfold rowOfEntry Metric.entry
      rw [m.value.readReal_text]
      rfl
    exact mapM_cons_eq_ok_iff.mpr ⟨rowOf m, metrics.map rowOf, hrow, ih, rfl⟩

end Tabular

/-- Behind a connection from which a snapshot is read are tables with this snapshot. -/
theorem tables_of_snapshot {c : Connection} {site : Site} {s : Snapshot}
    (h : (database c).snapshot site = .ok s) :
    c.isOpen = true ∧ ∃ t, c.tables? site = some t ∧ Tabular.readRows t = .ok s := by
  obtain ⟨rows, hrows, -⟩ := bind_eq_ok_iff.mp h
  have hquery : c.query site (·.rows) = .ok rows := within_eq_ok_iff.mp hrows
  unfold Connection.query at hquery
  cases hopen : c.isOpen with
  | false =>
    rw [hopen] at hquery
    cases hquery
  | true =>
    cases htables : c.tables? site with
    | none =>
      rw [hopen, htables] at hquery
      cases hquery
    | some t =>
      rw [snapshot_of_tables hopen htables] at h
      exact ⟨rfl, t, rfl, h⟩

/-! ## Both kinds of backups -/

theorem sound_add {site : Site} (h : site.Sound) (b : Backup) (batch : List Metric) :
    (b.add batch site).2.Sound := by
  cases b with
  | file b => exact h
  | database c => exact Connection.sound_update h c _

theorem sound_restore {site : Site} (h : site.Sound) (b : Backup) (snapshot : Snapshot) :
    (b.restore snapshot site).2.Sound := by
  cases b with
  | file b => exact h
  | database c =>
    unfold Backup.restore Tabular.restore
    dsimp only
    split
    · exact h
    · exact Connection.sound_update h c _

/-- Every snapshot that is read from a backup is without bare types. -/
theorem populated_of_snapshot {b : Backup} {site : Site} {s : Snapshot}
    (h : b.snapshot site = .ok s) : s.Populated := by
  cases b with
  | file b => exact FileBackup.populated_of_snapshot h
  | database c =>
    obtain ⟨-, t, -, hrows⟩ := tables_of_snapshot h
    obtain ⟨entries, -, hs⟩ := bind_eq_ok_iff.mp hrows
    cases hs
    exact Snapshot.populated_ofEntries entries

/-- Storing a batch that is retained puts its entries into the snapshot that is read. -/
theorem snapshot_of_add {b : Backup} {batch : List Metric} {site site' : Site} {s : Snapshot}
    (hsound : site.Sound) (hread : b.snapshot site = .ok s) (hretains : ∀ m ∈ batch, b.Retains m)
    (hadd : b.add batch site = (.ok (), site')) :
    b.snapshot site' = .ok ((batch.map Metric.entry).foldl Snapshot.put s) := by
  cases b with
  | file b =>
    obtain ⟨hresult, hsite⟩ := Prod.ext_iff.mp hadd
    subst hsite
    exact FileBackup.snapshot_of_add hread hretains (Prod.ext hresult rfl)
  | database c =>
    obtain ⟨hopen, t, htables, hrows⟩ := tables_of_snapshot hread
    have hupdate : c.update ((batch.map Tabular.fullRowOf).map .ofFull) site = (.ok (), site') := by
      obtain ⟨hresult, hsite⟩ := Prod.ext_iff.mp hadd
      rw [← Tabular.map_rowOf]
      exact Prod.ext (within_eq_ok_iff.mp hresult) hsite
    rw [snapshot_of_tables hopen (Connection.tables?_of_update htables hupdate)]
    exact Tabular.readRows_foldl_upsert (Connection.sound_tables? hsound htables) hrows hretains

/-- Restoring a snapshot whose entries are retained gives it back, alone or laid over the entries from
    before. -/
theorem snapshot_of_restore {b : Backup} {snapshot s : Snapshot} {site site' : Site}
    (hsound : site.Sound) (hread : b.snapshot site = .ok s) (hcanonical : snapshot.Canonical)
    (hretains : ∀ m : Metric, m.entry ∈ snapshot.toEntries → b.Retains m)
    (hrestore : b.restore snapshot site = (.ok (), site')) :
    ∃ s', b.snapshot site' = .ok s' ∧
      (s' = snapshot ∨ s' = snapshot.toEntries.foldl Snapshot.put s) := by
  cases b with
  | file b =>
    obtain ⟨hresult, hsite⟩ := Prod.ext_iff.mp hrestore
    subst hsite
    exact ⟨snapshot, FileBackup.snapshot_of_restore hread hcanonical hretains
      (Prod.ext hresult rfl), .inl rfl⟩
  | database c =>
    obtain ⟨hopen, t, htables, hrows⟩ := tables_of_snapshot hread
    obtain ⟨metrics, -, hentries⟩ := MemoryStore.readSnapshot_of_canonical hcanonical
    have hupdate : c.update ((metrics.map Tabular.fullRowOf).map .ofFull) site =
        (.ok (), site') := by
      change Tabular.restore c.relational snapshot site = (.ok (), site') at hrestore
      unfold Tabular.restore at hrestore
      rw [← hentries, Tabular.mapM_rowOfEntry, Tabular.map_rowOf] at hrestore
      obtain ⟨hresult, hsite⟩ := Prod.ext_iff.mp hrestore
      exact Prod.ext (within_eq_ok_iff.mp hresult) hsite
    refine ⟨_, ?_, .inr rfl⟩
    rw [snapshot_of_tables hopen (Connection.tables?_of_update htables hupdate), ← hentries]
    refine Tabular.readRows_foldl_upsert (Connection.sound_tables? hsound htables) hrows
      fun m hm => hretains m ?_
    rw [← hentries]
    exact List.mem_map_of_mem hm

end Backup

end Telemetry

-- SUMMARY: Files that are written and read again: records come back as they were, snapshots without their bare types.
import Mathlib
import Telemetry.Proofs.Backup.Interruption

/-!
# Restoration

A file is replaced as a whole, so what it held before, a list of records or not, plays no part in what is
read after a write. A snapshot is written as one record for each of its values. Types without names have
no values, so they alone are missing from the snapshot that is read back.
-/

namespace Telemetry.Backup.FileBackup

theorem records_of_write {path : String} {records : List Record} {d d' : Disk}
    (h : write ⟨some path⟩ records d = (.ok (), d')) :
    (⟨some path⟩ : FileBackup).records d' = .ok records :=
  records_of_replaced (entry?_of_runSteps (write_eq_ok_iff.mp h))

theorem snapshot_of_restore_complete {path : String} {s : Snapshot} {d d' : Disk}
    (hcomplete : ∀ e ∈ s.toEntries, e.Complete)
    (h : (⟨some path⟩ : FileBackup).restore s d = (.ok (), d')) :
    (⟨some path⟩ : FileBackup).snapshot d' = .ok s.withoutBareTypes :=
  snapshot_eq_ok_iff.mpr ⟨s.toEntries, records_of_write (restore_eq_ok_iff.mp h), hcomplete,
    Snapshot.ofEntries_toEntries s⟩

/-- A file that was written is opened again as it is. -/
theorem openAt_of_write {raw : String} (hraw : raw ≠ "") {records : List Record} {d d' : Disk}
    (h : write ⟨some (Path.canonical raw)⟩ records d = (.ok (), d')) :
    openAt raw d' = (.ok ⟨some (Path.canonical raw)⟩, d') :=
  (openAt_of_runSteps hraw (write_eq_ok_iff.mp h)).1

/-- Whatever a disk holds, the records of a write that succeeds are the ones read afterwards, and after a
    snapshot of complete entries is restored it is read, but for its bare types, by the backup and by one
    that is opened at its path. On a disk that takes the file all writes succeed. -/
theorem restored_snapshot_is_read_back (path : String) (d : Disk) :
    let b : FileBackup := ⟨some path⟩
    (∀ records d', b.write records d = (.ok (), d') → b.records d' = .ok records) ∧
    (∀ (s : Snapshot) d', (∀ e ∈ s.toEntries, e.Complete) → b.restore s d = (.ok (), d') →
      b.snapshot d' = .ok s.withoutBareTypes ∧
        ∀ raw, raw ≠ "" → Path.canonical raw = path → openAt raw d' = (.ok b, d')) ∧
    (Writable path d → (∀ records, ∃ d', b.write records d = (.ok (), d')) ∧
      ∀ s, ∃ d', b.restore s d = (.ok (), d')) := by
  intro b
  refine ⟨fun records d' => records_of_write, ?_, ?_⟩
  · intro s d' hcomplete hrestore
    refine ⟨snapshot_of_restore_complete hcomplete hrestore, ?_⟩
    rintro raw hraw rfl
    exact openAt_of_write hraw (restore_eq_ok_iff.mp hrestore)
  · intro hwritable
    have hwrite : ∀ records, ∃ d', b.write records d = (.ok (), d') := by
      intro records
      obtain ⟨d', hwrite, -⟩ := write_ok hwritable records
      exact ⟨d', hwrite⟩
    refine ⟨hwrite, fun s => ?_⟩
    obtain ⟨d', hrestored⟩ := hwrite (s.toEntries.map .ofEntry)
    exact ⟨d', restore_eq_ok_iff.mpr hrestored⟩

/-- A snapshot with a bare type is restored over a file that is no list of records. -/
theorem restored_snapshot_is_read_back_over_corrupt_file :
    let b : FileBackup := ⟨some "b"⟩
    let d := Disk.empty.put "b" (.file [0x7b])
    let values : Snapshot := Snapshot.ofEntries [⟨"counter", "a", "5"⟩]
    let s : Snapshot := SortedMap.insert values "gauge" SortedMap.empty
    s ≠ values ∧ Record.readFile? [0x7b] = none ∧
      ∃ d', b.restore s d = (.ok (), d') ∧ b.snapshot d' = .ok values ∧
        openAt "b" d' = (.ok b, d') := by
  intro b d values s
  have hentries : s.toEntries = [⟨"counter", "a", "5"⟩] := by
    decide
  have hcomplete : ∀ e ∈ s.toEntries, e.Complete := by
    simp [hentries, Snapshot.Entry.Complete]
  have hvalues : s.withoutBareTypes = values := by
    decide
  obtain ⟨-, hread, hwrites⟩ := restored_snapshot_is_read_back "b" d
  obtain ⟨d', hrestore⟩ := (hwrites writable_put_file).2 s
  obtain ⟨hsnapshot, hopen⟩ := hread s d' hcomplete hrestore
  have hpath : Path.canonical "b" = "b" := by
    cbv
  refine ⟨by decide, by decide +kernel, d', hrestore, hvalues ▸ hsnapshot, ?_⟩
  exact hopen "b" (by decide) hpath

end Telemetry.Backup.FileBackup

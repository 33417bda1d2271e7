-- SUMMARY: Durability in sync mode over a file: after every call the file keeps what is in memory, over any number of restarts.
import Mathlib
import Telemetry.Proofs.Store.Adding
import Telemetry.Proofs.Store.Restoring
import Telemetry.Store.Storage

/-!
# Durability

A run is a list of calls, and a restart is one of them: it drops the store and makes a new one from the
backup. So a run goes over any number of lives of the process, each of which ends between two calls,
closed or not. In sync mode the file keeps the snapshot of the memory; every call preserves this, and
nothing else is needed to survive a restart.
-/

namespace Telemetry.Storage

open Backup (FileBackup)
open Backup.FileBackup (Keeps Writable)

/-! ## Runs -/

/-- What happens to a storage: new metrics are added, a backup is made, the storage is closed, or the
    process ends and starts again. -/
inductive Call where
  | add (metrics : List Metric)
  | createBackup
  | close
  | restart

/-- Every added metric has a name. -/
def Call.Named : Call → Prop
  | add metrics => ∀ m ∈ metrics, m.name ≠ ""
  | _ => True

/-- Add new instances of metrics. -/
def addNew (s : Storage) (metrics : List Metric) : Outcome (List Handle) × Storage :=
  let (handles, instances) := s.instances.allocAll metrics
  { s with instances }.add handles

/-- A new process with the same settings: nothing but the site is left of the one before. -/
def restart (s : Storage) : Outcome Unit × Storage :=
  (start .empty s.backup s.sync s.site).restoreFromBackup

def call (s : Storage) : Call → Outcome Unit × Storage
  | .add metrics =>
    let (result, s) := s.addNew metrics
    (result.map fun _ => (), s)
  | .createBackup => s.createBackup
  | .close => s.close
  | .restart => s.restart

/-- The storage after a list of calls. -/
def run (s : Storage) (calls : List Call) : Storage :=
  calls.foldl (fun s c => (s.call c).2) s

/-! ## The file mirrors the memory -/

/-- In sync mode, the file at a path keeps what is in memory. -/
structure Mirrored (path : String) (s : Storage) : Prop where
  backup_eq : s.backup = .file ⟨some path⟩
  sync : s.sync = true
  filed : s.memory.Filed s.instances
  keeps : Keeps path s.site.disk s.snapshot

theorem Mirrored.backup_snapshot {path : String} {s : Storage} (h : Mirrored path s) :
    s.backup.snapshot s.site = .ok s.snapshot := by
  rw [h.backup_eq]
  exact h.keeps.snapshot

/-- A storage that starts over a file without records mirrors it. -/
theorem mirrored_start {path : String} {site : Site} (hwritable : Writable path site.disk)
    (hempty : (⟨some path⟩ : FileBackup).records site.disk = .ok []) :
    Mirrored path (start .empty (.file ⟨some path⟩) true site) where
  backup_eq := rfl
  sync := rfl
  filed := MemoryStore.filed_empty _
  keeps := ⟨hwritable, [], hempty, List.forall_mem_nil _, rfl⟩

/-! ## Steps -/

theorem Mirrored.append {path : String} {s : Storage} (h : Mirrored path s)
    (metrics : List Metric) : Mirrored path { s with instances := s.instances.append metrics } where
  backup_eq := h.backup_eq
  sync := h.sync
  filed := h.filed.append metrics
  keeps := by
    unfold Storage.snapshot
    rw [MemoryStore.snapshot_append h.filed]
    exact h.keeps

theorem Mirrored.add {path : String} {s : Storage} (h : Mirrored path s) {handles : List Handle}
    (hknown : MemoryStore.Known s.instances handles)
    (hnamed : ∀ given ∈ handles, ∀ m, s.instances.get? given = some m → m.name ≠ "") :
    ∃ stored s', s.add handles = (.ok stored, s') ∧ Mirrored path s' := by
  generalize hadded : s.memory.add s.instances handles = added
  have hbatch : ∀ m ∈ added.2.2.metrics added.1, m.entry.Complete := by
    intro m hm
    rw [← hadded] at hm
    obtain ⟨given, hgiven, m₀, hm₀, hname⟩ :=
      MemoryStore.name_of_mem_metrics_add h.filed hknown hm
    refine ⟨?_, ?_, m.value.text_ne_empty⟩
    · exact Kind.name_ne_empty m.kind
    · exact fun hempty => hnamed given hgiven m₀ hm₀ (hname.symm.trans hempty)
  obtain ⟨disk, hadd, hkeeps⟩ := h.keeps.add hbatch
  have hsnapshot := MemoryStore.foldl_put_snapshot h.filed hknown
  have hfiled := MemoryStore.filed_add h.filed handles
  rw [hadded] at hsnapshot hfiled
  rw [show s.snapshot = s.memory.snapshot s.instances from rfl, hsnapshot] at hkeeps
  refine ⟨added.1, { s with memory := added.2.1, instances := added.2.2, site := { s.site with disk } },
    ?_, ⟨h.backup_eq, h.sync, hfiled, hkeeps⟩⟩
  unfold Storage.add Storage.addToMemory Storage.writeThrough
  simp only [hadded, h.sync, h.backup_eq, Backup.add, Backup.onDisk, hadd, if_true, within_ok]
  rfl

theorem Mirrored.addNew {path : String} {s : Storage} (h : Mirrored path s) {metrics : List Metric}
    (hnamed : ∀ m ∈ metrics, m.name ≠ "") :
    ∃ stored s', s.addNew metrics = (.ok stored, s') ∧ Mirrored path s' := by
  unfold Storage.addNew
  rw [Instances.allocAll_eq]
  refine (h.append metrics).add ?_ ?_
  · intro given hgiven
    obtain ⟨m, -, hm⟩ := Instances.exists_get?_append hgiven
    exact ⟨m, hm⟩
  · intro given hgiven m hm
    obtain ⟨m', hmem, hm'⟩ := Instances.exists_get?_append hgiven
    rw [hm] at hm'
    cases hm'
    exact hnamed m hmem

theorem Mirrored.createBackup {path : String} {s : Storage} (h : Mirrored path s) :
    ∃ s', s.createBackup = (.ok (), s') ∧ Mirrored path s' := by
  obtain ⟨disk, hrestore, hkeeps⟩ := Backup.FileBackup.Keeps.restore_of_populated
    h.keeps.writable h.keeps.populated fun e => h.keeps.complete
  refine ⟨{ s with site := { s.site with disk } }, ?_, ⟨h.backup_eq, h.sync, h.filed, hkeeps⟩⟩
  unfold Storage.createBackup
  simp only [h.backup_eq, Backup.restore, Backup.onDisk, hrestore]

theorem Mirrored.close {path : String} {s : Storage} (h : Mirrored path s) :
    ∃ s', s.close = (.ok (), s') ∧ Mirrored path s' := by
  obtain ⟨s', hcreate, h'⟩ := h.createBackup
  refine ⟨{ s' with backup := s'.backup.close }, ?_, ⟨?_, h'.sync, h'.filed, h'.keeps⟩⟩
  · unfold Storage.close
    rw [hcreate]
  · rw [h'.backup_eq]
    rfl

/-- A restart gives the storage back with the same snapshot. -/
theorem Mirrored.restart {path : String} {s : Storage} (h : Mirrored path s) :
    ∃ s', s.restart = (.ok (), s') ∧ Mirrored path s' ∧ s'.snapshot = s.snapshot := by
  have hcanonical : s.snapshot.Canonical := MemoryStore.canonical_snapshot h.filed
  obtain ⟨memory, instances, hrestore, hfiled, hsnapshot⟩ :=
    MemoryStore.restore_of_canonical .empty hcanonical
  refine ⟨{ s with memory, instances }, ?_, ⟨h.backup_eq, h.sync, hfiled, ?_⟩, hsnapshot⟩
  · have hread : within "get metrics from backup storage" (s.backup.snapshot s.site) =
        .ok s.snapshot := by rw [h.backup_snapshot, within_ok]
    unfold Storage.restart Storage.restoreFromBackup Storage.start Storage.restore
    simp only [hread, hrestore]
  · have hkeeps := h.keeps
    rw [← hsnapshot] at hkeeps
    exact hkeeps

/-- Every call succeeds and keeps the file in step with the memory. -/
theorem Mirrored.call {path : String} {s : Storage} (h : Mirrored path s) {c : Call}
    (hnamed : c.Named) : (s.call c).1 = .ok () ∧ Mirrored path (s.call c).2 := by
  cases c with
  | add metrics =>
    obtain ⟨stored, s', heq, h'⟩ := h.addNew hnamed
    have hcall : s.call (.add metrics) = (.ok (), s') :=
      congrArg (fun r : Outcome (List Handle) × Storage => (r.1.map fun _ => (), r.2)) heq
    rw [hcall]
    exact ⟨rfl, h'⟩
  | createBackup =>
    obtain ⟨s', heq, h'⟩ := h.createBackup
    rw [show s.call .createBackup = _ from heq]
    exact ⟨rfl, h'⟩
  | close =>
    obtain ⟨s', heq, h'⟩ := h.close
    rw [show s.call .close = _ from heq]
    exact ⟨rfl, h'⟩
  | restart =>
    obtain ⟨s', heq, h', -⟩ := h.restart
    rw [show s.call .restart = _ from heq]
    exact ⟨rfl, h'⟩

theorem Mirrored.run {path : String} {s : Storage} (h : Mirrored path s) {calls : List Call}
    (hnamed : ∀ c ∈ calls, c.Named) : Mirrored path (s.run calls) := by
  induction calls generalizing s with
  | nil => exact h
  | cons c calls ih =>
    exact ih (h.call (hnamed c List.mem_cons_self)).2
      fun c hc => hnamed c (List.mem_cons_of_mem _ hc)

/-- In sync mode over a file that starts without records, after every run of calls, restarts among them,
    reading the backup gives the snapshot of the memory, a restart would give this snapshot again, and
    whatever is called next succeeds. -/
theorem run_over_file_loses_nothing {path : String} {site : Site}
    (hwritable : Writable path site.disk)
    (hempty : (⟨some path⟩ : FileBackup).records site.disk = .ok []) {calls : List Call}
    (hnamed : ∀ c ∈ calls, c.Named) :
    let s := (start .empty (.file ⟨some path⟩) true site).run calls
    s.backup.snapshot s.site = .ok s.snapshot ∧
      (s.call .restart).2.snapshot = s.snapshot ∧
      ∀ c : Call, c.Named → (s.call c).1 = .ok () := by
  intro s
  have h : Mirrored path s := (mirrored_start hwritable hempty).run hnamed
  refine ⟨h.backup_snapshot, ?_, fun c hc => (h.call hc).1⟩
  obtain ⟨s', heq, -, hsnapshot⟩ := h.restart
  rw [show s.call .restart = _ from heq]
  exact hsnapshot

/-- A counter named twice in one batch and a gauge that is not a number survive a restart. -/
theorem run_over_empty_file_loses_nothing :
    Writable "b" (Disk.empty.put "b" (.file [])) ∧
      (⟨some "b"⟩ : FileBackup).records (Disk.empty.put "b" (.file [])) = .ok [] ∧
      (∀ c ∈ [Call.add [⟨"a", .counter 1⟩, ⟨"c", .gauge .nan⟩, ⟨"a", .counter 2⟩], .restart],
        c.Named) ∧
      let s := (start .empty (.file ⟨some "b"⟩) true ⟨Disk.empty.put "b" (.file []), .empty⟩).run
        [.add [⟨"a", .counter 1⟩, ⟨"c", .gauge .nan⟩, ⟨"a", .counter 2⟩], .restart]
      s.backup.snapshot s.site = .ok s.snapshot ∧
        (s.call .restart).2.snapshot = s.snapshot ∧
        ∀ c : Call, c.Named → (s.call c).1 = .ok () := by
  have hwritable : Writable "b" (Disk.empty.put "b" (.file [])) :=
    Backup.FileBackup.writable_put_file
  have hempty : (⟨some "b"⟩ : FileBackup).records (Disk.empty.put "b" (.file [])) = .ok [] := rfl
  have hnamed : ∀ c ∈ [Call.add [⟨"a", .counter 1⟩, ⟨"c", .gauge .nan⟩, ⟨"a", .counter 2⟩],
      .restart], c.Named := by
    simp [Call.Named]
  refine ⟨hwritable, hempty, hnamed, ?_⟩
  exact run_over_file_loses_nothing hwritable hempty hnamed

end Telemetry.Storage

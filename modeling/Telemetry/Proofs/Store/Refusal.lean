-- SUMMARY: Additions whose write to the backup fails: the backup is as before, and the memory has taken the batch.
import Telemetry.Proofs.Database.Connection
import Telemetry.Proofs.Store.Accumulation
import Telemetry.Proofs.Store.Durability

/-!
# Refused additions

An addition goes to memory first and to the backup after that. If the backup fails, the call fails and
nothing on the site has changed, but the memory keeps the batch: it is as it would be with no backup at
all. So a client that was refused and comes again with the same metrics is counted a second time.
-/

namespace Telemetry

/-! ## Failures of a backup -/

/-- Storing a batch in a backup changes nothing if it fails. -/
theorem Backup.add_error {b : Backup} {batch : List Metric} {site site' : Site} {e : Error}
    (h : b.add batch site = (.error e, site')) : site' = site := by
  unfold Backup.add at h
  cases b with
  | file b =>
    simp only [onDisk] at h
    obtain ⟨⟨result, disk⟩, hadd⟩ : ∃ added, b.add batch site.disk = added := ⟨_, rfl⟩
    rw [hadd] at h
    cases h
    rw [FileBackup.add_error hadd]
  | database c =>
    simp only [Tabular.add] at h
    obtain ⟨⟨result, after⟩, hupdate⟩ :
        ∃ updated, c.update (batch.map Tabular.rowOf) site = updated := ⟨_, rfl⟩
    simp only [Database.Connection.relational, hupdate] at h
    cases result with
    | ok _ => cases h
    | error e₁ =>
      cases h
      exact Database.Connection.update_error hupdate

namespace Storage

open Backup.FileBackup (writeSteps)

/-! ## What an addition leaves -/

/-- The value in memory under a key. -/
def value? (s : Storage) (kind : Kind) (name : String) : Option Value :=
  s.memory.value? s.instances kind name

/-- Whether the backup takes it or not, an addition does to memory what it does without one. -/
theorem memory_add (s : Storage) (handles : List Handle) :
    ((s.add handles).2.memory, (s.add handles).2.instances) =
      (s.memory.add s.instances handles).2 := by
  unfold Storage.add addToMemory
  cases s.sync <;> rfl

/-- An addition that succeeds answers with the instances that memory has stored. -/
theorem eq_add_of_ok {s s' : Storage} {handles stored : List Handle}
    (h : s.add handles = (.ok stored, s')) :
    (stored, s'.memory, s'.instances) = s.memory.add s.instances handles := by
  unfold Storage.add addToMemory writeThrough at h
  cases hsync : s.sync with
  | false =>
    simp only [hsync, Bool.false_eq_true, if_false] at h
    cases h
    rfl
  | true =>
    simp only [hsync, if_true] at h
    generalize s.backup.add _ s.site = added at h
    obtain ⟨result, site⟩ := added
    cases result with
    | ok _ =>
      cases h
      rfl
    | error e => cases h

theorem backup_add (s : Storage) (handles : List Handle) :
    (s.add handles).2.backup = s.backup := by
  unfold Storage.add addToMemory
  cases s.sync <;> rfl

/-- An addition that fails leaves the site as it is. -/
theorem site_add_of_error {s : Storage} {handles : List Handle} {e : Error}
    (h : (s.add handles).1 = .error e) : (s.add handles).2.site = s.site := by
  unfold Storage.add addToMemory at h ⊢
  cases hsync : s.sync with
  | false =>
    simp [hsync] at h
  | true =>
    simp only [hsync, if_true, writeThrough] at h ⊢
    generalize hadd : s.backup.add _ s.site = added at h ⊢
    obtain ⟨result, site⟩ := added
    cases result with
    | ok _ => cases h
    | error e₁ => exact Backup.add_error hadd

theorem filed_addNew {s : Storage} (hfiled : s.memory.Filed s.instances) (metrics : List Metric) :
    (s.addNew metrics).2.memory.Filed (s.addNew metrics).2.instances := by
  have h := MemoryStore.filed_addFresh hfiled metrics
  unfold MemoryStore.addFresh at h
  rw [← memory_add { s with instances := (s.instances.allocAll metrics).2 }] at h
  exact h

/-- New metrics are absorbed by what is under their keys, whether the backup takes them or not. -/
theorem value?_addNew {s : Storage} (hfiled : s.memory.Filed s.instances) (metrics : List Metric)
    (kind : Kind) (name : String) :
    (s.addNew metrics).2.value? kind name =
      (updates metrics kind name).foldl (fun before v => some (MemoryStore.absorb v before))
        (s.value? kind name) := by
  have h := MemoryStore.value?_addFresh hfiled metrics kind name
  unfold MemoryStore.addFresh at h
  rw [← memory_add { s with instances := (s.instances.allocAll metrics).2 }] at h
  exact h

/-- An addition that fails leaves the backup and all of the site as they were, and a replacement of the
    file that is interrupted before its last step leaves the file as it was. The memory is what the same
    addition leaves without writing through: it has absorbed the metrics, and absorbs them once more when
    they come again. -/
theorem failed_add_changes_memory_alone (s : Storage) :
    (∀ handles e, (s.add handles).1 = .error e →
      let s' := (s.add handles).2
      s'.backup = s.backup ∧ s'.site = s.site ∧
        s'.backup.snapshot s'.site = s.backup.snapshot s.site ∧
        (s'.memory, s'.instances) = (s.memory.add s.instances handles).2 ∧
        s'.snapshot = ({ s with sync := false }.add handles).2.snapshot) ∧
    (∀ path records n, n < (writeSteps path records).length →
      Disk.entry? (s.site.disk.runSteps ((writeSteps path records).take n)).2 path =
        s.site.disk.entry? path) ∧
    (s.memory.Filed s.instances → ∀ metrics kind name,
      let absorbed := (updates metrics kind name).foldl fun before v =>
        some (MemoryStore.absorb v before)
      let once := (s.addNew metrics).2
      once.value? kind name = absorbed (s.value? kind name) ∧
        (once.addNew metrics).2.value? kind name = absorbed (absorbed (s.value? kind name))) := by
  refine ⟨?_, ?_, ?_⟩
  · intro handles e h
    have hbackup := backup_add s handles
    have hsite := site_add_of_error h
    refine ⟨hbackup, hsite, ?_, memory_add s handles, ?_⟩
    · rw [hbackup, hsite]
    · have hmemory := (memory_add s handles).trans (memory_add { s with sync := false } handles).symm
      obtain ⟨hmemory, hinstances⟩ := Prod.ext_iff.mp hmemory
      exact congrArg₂ MemoryStore.snapshot hmemory hinstances
  · intro path records n hn
    exact Backup.FileBackup.entry?_runSteps_take_writeSteps path records s.site.disk hn
  · intro hfiled metrics kind name
    dsimp only
    rw [value?_addNew (filed_addNew hfiled metrics), value?_addNew hfiled]
    exact ⟨rfl, rfl⟩

/-- A storage with one loose instance whose file is blocked by a directory. -/
def blocked : Storage :=
  start ⟨#[⟨"a", .counter 5⟩]⟩ (.file ⟨some "b"⟩) true ⟨Disk.empty.put "b" .directory, .empty⟩

/-- Behind a directory, the instance is not in the backup but counts in memory, and a second try with
    the same amount counts again. -/
theorem failed_add_over_directory :
    (∃ e, (blocked.add [0]).1 = .error e ∧ (blocked.add [0]).2.site = blocked.site ∧
      (blocked.add [0]).2.snapshot = ({ blocked with sync := false }.add [0]).2.snapshot) ∧
    0 < (writeSteps "b" []).length ∧
    Disk.entry? (blocked.site.disk.runSteps ((writeSteps "b" []).take 0)).2 "b" =
      blocked.site.disk.entry? "b" ∧
    blocked.memory.Filed blocked.instances ∧
    (blocked.addNew [⟨"a", .counter 5⟩]).2.value? .counter "a" = some (.counter 5) ∧
    ((blocked.addNew [⟨"a", .counter 5⟩]).2.addNew [⟨"a", .counter 5⟩]).2.value? .counter "a" =
      some (.counter 10) := by
  have h := failed_add_changes_memory_alone blocked
  have hfiled : blocked.memory.Filed blocked.instances := MemoryStore.filed_empty _
  have hvalues := h.2.2 hfiled [⟨"a", .counter 5⟩] .counter "a"
  obtain ⟨-, hsite, -, -, hsnapshot⟩ := h.1 [0] _ rfl
  exact ⟨⟨_, rfl, hsite, hsnapshot⟩, by decide, h.2.1 "b" [] 0 (by decide), hfiled, hvalues.1,
    hvalues.2⟩

/-- After a refusal the memory is not what it was, and the same metrics count again. -/
theorem refused_metrics_count :
    (∃ e, (blocked.addNew [⟨"a", .counter 5⟩]).1 = .error e) ∧
      (blocked.addNew [⟨"a", .counter 5⟩]).2.snapshot ≠ blocked.snapshot ∧
      ((blocked.addNew [⟨"a", .counter 5⟩]).2.addNew [⟨"a", .counter 5⟩]).2.value? .counter "a" =
        some (.counter 10) := by
  refine ⟨⟨_, rfl⟩, fun hsame => ?_, by decide +kernel⟩
  have hentries := congrArg Snapshot.toEntries hsame
  have hempty : blocked.snapshot.toEntries = [] := by decide +kernel
  have hone : (blocked.addNew [⟨"a", .counter 5⟩]).2.snapshot.toEntries =
      [⟨"counter", "a", "5"⟩] := by decide +kernel
  rw [hempty, hone] at hentries
  cases hentries

end Storage

end Telemetry

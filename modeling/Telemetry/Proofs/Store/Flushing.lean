-- SUMMARY: Async mode over a file: which batches a crash leaves, wherever it falls between additions and the steps of backups.
import Mathlib
import Telemetry.Proofs.Store.Accumulation
import Telemetry.Proofs.Store.Calls
import Telemetry.Proofs.Store.Refusal

/-!
# Flushing

In async mode additions go to memory alone, and the file changes only when a backup is made. A backup reads
the memory and rewrites the file later, and additions may come in between. So what a restart finds is the
memory as it was when the last finished backup read it. A tally of batches follows the run beside the
storage: the batches in memory, those that a backup in the making has read, and those in the file.
-/

namespace Telemetry

namespace Storage

open Backup (FileBackup)
open Backup.FileBackup (Keeps Writable)

/-- The storage after batches of new metrics have been added one after the other. -/
def addAll (s : Storage) (batches : List (List Metric)) : Storage :=
  batches.foldl (fun s batch => (s.addNew batch).2) s

theorem addAll_append_singleton (s : Storage) (batches : List (List Metric)) (batch : List Metric) :
    s.addAll (batches ++ [batch]) = ((s.addAll batches).addNew batch).2 := by
  unfold addAll
  rw [List.foldl_append]
  rfl

/-! ## What additions do -/

theorem backup_addNew (s : Storage) (metrics : List Metric) :
    (s.addNew metrics).2.backup = s.backup :=
  backup_add _ _

theorem sync_addNew (s : Storage) (metrics : List Metric) : (s.addNew metrics).2.sync = s.sync := by
  unfold addNew Storage.add addToMemory
  cases s.sync <;> rfl

theorem site_addNew {s : Storage} (hasync : s.sync = false) (metrics : List Metric) :
    (s.addNew metrics).2.site = s.site := by
  unfold addNew Storage.add addToMemory
  simp only [hasync, Bool.false_eq_true, if_false]

theorem filed_addAll {s : Storage} (hfiled : s.memory.Filed s.instances)
    (batches : List (List Metric)) :
    (s.addAll batches).memory.Filed (s.addAll batches).instances := by
  induction batches generalizing s with
  | nil => exact hfiled
  | cons batch batches ih => exact ih (filed_addNew hfiled batch)

/-- What an addition leaves depends on the snapshot before alone. -/
theorem snapshot_addNew_congr {s u : Storage} (hs : s.memory.Filed s.instances)
    (hu : u.memory.Filed u.instances) (h : s.snapshot = u.snapshot) (metrics : List Metric) :
    (s.addNew metrics).2.snapshot = (u.addNew metrics).2.snapshot := by
  refine MemoryStore.snapshot_eq_of_value?_eq fun kind name => ?_
  have hvalue : s.value? kind name = u.value? kind name :=
    MemoryStore.value?_eq_of_snapshot_eq hs hu h kind name
  exact (value?_addNew hs metrics kind name).trans
    ((value?_addNew hu metrics kind name).trans (by rw [hvalue])).symm

/-! ## Names -/

/-- Nothing is stored under the empty name. -/
def Named (s : Storage) : Prop :=
  ∀ kind, s.value? kind "" = none

theorem named_addNew {s : Storage} (hfiled : s.memory.Filed s.instances) (hnamed : s.Named)
    {metrics : List Metric} (hmetrics : ∀ m ∈ metrics, m.name ≠ "") :
    (s.addNew metrics).2.Named := by
  intro kind
  have hnone : updates metrics kind "" = [] :=
    updates_eq_nil_iff.mpr fun m hm hkey => hmetrics m hm hkey.2.symm
  rw [value?_addNew hfiled, hnone]
  exact hnamed kind

theorem named_addAll {s : Storage} (hfiled : s.memory.Filed s.instances) (hnamed : s.Named)
    {batches : List (List Metric)} (hbatches : ∀ batch ∈ batches, ∀ m ∈ batch, m.name ≠ "") :
    (s.addAll batches).Named := by
  induction batches generalizing s with
  | nil => exact hnamed
  | cons batch batches ih =>
    exact ih (filed_addNew hfiled batch)
      (named_addNew hfiled hnamed (hbatches batch List.mem_cons_self))
      fun other hother => hbatches other (List.mem_cons_of_mem _ hother)

/-- Without empty names, every entry of the snapshot is complete. -/
theorem Named.complete {s : Storage} (hfiled : s.memory.Filed s.instances) (hnamed : s.Named)
    {e : Snapshot.Entry} (he : e ∈ s.snapshot.toEntries) : e.Complete := by
  obtain ⟨m, rfl⟩ := (MemoryStore.canonical_snapshot hfiled).entry e he
  refine ⟨Kind.name_ne_empty m.kind, fun hempty => ?_, m.value.text_ne_empty⟩
  have hvalue := Snapshot.mem_toEntries_iff.mp he
  rw [hempty, Metric.entry, Storage.snapshot, MemoryStore.value?_snapshot_name,
    show s.memory.value? s.instances m.kind "" = none from hnamed m.kind] at hvalue
  cases hvalue

/-! ## Restoring from the backup -/

theorem restoreFromBackup_eq_ok_iff {s s' : Storage} :
    s.restoreFromBackup = (.ok (), s') ↔
      ∃ snapshot memory instances, s.readBackup = .ok snapshot ∧
        MemoryStore.restore s.instances snapshot = .ok (memory, instances) ∧
        s' = { s with memory, instances } := by
  cases hread : s.readBackup with
  | error e =>
    rw [restoreFromBackup_of_error hread]
    exact ⟨fun h => (nomatch (Prod.ext_iff.mp h).1), fun ⟨_, _, _, h, _⟩ => nomatch h⟩
  | ok snapshot =>
    rw [restoreFromBackup_of_ok hread]
    unfold Storage.restore
    cases hrestore : MemoryStore.restore s.instances snapshot with
    | error e =>
      refine ⟨fun h => (nomatch (Prod.ext_iff.mp h).1), ?_⟩
      rintro ⟨_, _, _, hsnapshot, h, -⟩
      cases hsnapshot
      rw [hrestore] at h
      cases h
    | ok restored =>
      obtain ⟨memory, instances⟩ := restored
      constructor
      · intro h
        exact ⟨snapshot, memory, instances, rfl, hrestore, (Prod.ext_iff.mp h).2.symm⟩
      · rintro ⟨_, _, _, hsnapshot, h, rfl⟩
        cases hsnapshot
        rw [hrestore] at h
        cases h
        rfl

/-- Restoring leaves the backup and the site as they are, whether it succeeds or not. -/
theorem restoreFromBackup_frame (s : Storage) :
    s.restoreFromBackup.2.backup = s.backup ∧ s.restoreFromBackup.2.sync = s.sync ∧
      s.restoreFromBackup.2.site = s.site := by
  cases hread : s.readBackup with
  | error e =>
    rw [restoreFromBackup_of_error hread]
    exact ⟨rfl, rfl, rfl⟩
  | ok snapshot =>
    rw [restoreFromBackup_of_ok hread]
    unfold Storage.restore
    cases MemoryStore.restore s.instances snapshot <;> exact ⟨rfl, rfl, rfl⟩

/-- What a restart gives depends on the backup and the site alone. -/
theorem restart_congr {s u : Storage} (hbackup : s.backup = u.backup) (hsync : s.sync = u.sync)
    (hsite : s.site = u.site) : s.restart = u.restart := by
  unfold restart
  rw [hbackup, hsync, hsite]

/-- A restart finds the snapshot that the storage was restored from. -/
theorem restart_of_restored {s s' : Storage} (h : s.restoreFromBackup = (.ok (), s')) :
    ∃ u, s'.restart = (.ok (), u) ∧ u.snapshot = s'.snapshot := by
  obtain ⟨snapshot, memory, instances, hread, hrestore, rfl⟩ := restoreFromBackup_eq_ok_iff.mp h
  obtain ⟨⟨memory', instances'⟩, hagain, hsame⟩ := MemoryStore.restore_again hrestore .empty
  exact ⟨_, restoreFromBackup_eq_ok_iff.mpr ⟨snapshot, memory', instances', hread, hagain, rfl⟩,
    hsame⟩

theorem filed_of_restored {s s' : Storage} (h : s.restoreFromBackup = (.ok (), s')) :
    s'.memory.Filed s'.instances := by
  obtain ⟨snapshot, memory, instances, -, hrestore, rfl⟩ := restoreFromBackup_eq_ok_iff.mp h
  exact MemoryStore.filed_restore hrestore

/-- A file gives back no empty names. -/
theorem named_of_restored {b : FileBackup} {s s' : Storage} (hbackup : s.backup = .file b)
    (h : s.restoreFromBackup = (.ok (), s')) : s'.Named := by
  obtain ⟨snapshot, memory, instances, hread, hrestore, rfl⟩ := restoreFromBackup_eq_ok_iff.mp h
  intro kind
  rw [← Option.not_isSome_iff_eq_none]
  intro hsome
  obtain ⟨v, hv⟩ := Option.isSome_iff_exists.mp hsome
  have hentry : (⟨kind.name, "", v.text⟩ : Snapshot.Entry) ∈
      (memory.snapshot instances).toEntries := by
    rw [Snapshot.mem_toEntries_iff, MemoryStore.value?_snapshot_name,
      show memory.value? instances kind "" = some v from hv]
    rfl
  obtain ⟨-, raw, hraw⟩ := MemoryStore.exists_mem_of_restore hrestore hentry
  have hsnapshot : b.snapshot s.site.disk = .ok snapshot := by
    have hread' := within_eq_ok_iff.mp hread
    rwa [hbackup] at hread'
  exact (FileBackup.complete_of_mem_snapshot hsnapshot hraw).2.1 rfl

/-- On a disk that takes writes, a snapshot that is written over the file is what a restart finds. -/
theorem overwrite_restart {s u : Storage} {path : String} (hbackup : s.backup = .file ⟨some path⟩)
    (hwritable : Writable path s.site.disk) (hfiled : u.memory.Filed u.instances)
    (hnamed : u.Named) :
    ∃ site, s.overwrite u.snapshot = (.ok (), { s with site }) ∧ Writable path site.disk ∧
      ∃ s', { s with site }.restart = (.ok (), s') ∧ s'.snapshot = u.snapshot := by
  have hcanonical : u.snapshot.Canonical := MemoryStore.canonical_snapshot hfiled
  obtain ⟨disk, hrestore, hkeeps⟩ := Keeps.restore_of_populated hwritable hcanonical.populated
    fun e he => hnamed.complete hfiled he
  obtain ⟨memory, instances, hagain, -, hsnapshot⟩ :=
    MemoryStore.restore_of_canonical .empty hcanonical
  refine ⟨{ s.site with disk }, ?_, hkeeps.writable,
    { s with memory, instances, site := { s.site with disk } }, ?_, hsnapshot⟩
  · unfold overwrite
    simp only [hbackup, Backup.restore, Backup.onDisk, hrestore]
  · refine restoreFromBackup_eq_ok_iff.mpr ⟨u.snapshot, memory, instances, ?_, hagain, rfl⟩
    unfold readBackup start
    simp only [hbackup, Backup.snapshot, hkeeps.snapshot, within_ok]

end Storage

/-! ## Runs -/

/-- A storage in async mode, and the snapshot that a backup in the making has read. -/
structure Flush where
  storage : Storage
  read? : Option Snapshot

namespace Flush

/-- New metrics are added, a backup in the making reads the memory or rewrites the file, the backup is
    closed, or the process ends and starts again. -/
inductive Event where
  | add (metrics : List Metric)
  | read
  | rewrite
  | close
  | restart

/-- Every added metric has a name. -/
def Event.Named : Event → Prop
  | .add metrics => ∀ m ∈ metrics, m.name ≠ ""
  | _ => True

/-- What is left after an event. One backup is made at a time; an event that cannot happen changes
    nothing. -/
def step (f : Flush) : Event → Flush
  | .add metrics => { f with storage := (f.storage.addNew metrics).2 }
  | .read =>
    match f.read? with
    | none => { f with read? := some f.storage.snapshot }
    | some _ => f
  | .rewrite =>
    match f.read? with
    | some snapshot => ⟨(f.storage.overwrite snapshot).2, none⟩
    | none => f
  | .close => { f with storage.backup := f.storage.backup.close }
  | .restart => ⟨f.storage.restart.2, none⟩

def run (f : Flush) (events : List Event) : Flush :=
  events.foldl step f

/-- Making a backup is reading and rewriting. -/
theorem run_read_rewrite (s : Storage) :
    run ⟨s, none⟩ [.read, .rewrite] = ⟨s.createBackup.2, none⟩ := rfl

/-- Closing a storage makes a last backup before it closes the backup. -/
theorem run_read_rewrite_close {s s' : Storage} (h : s.close = (.ok (), s')) :
    run ⟨s, none⟩ [.read, .rewrite, .close] = ⟨s', none⟩ := by
  unfold Storage.close at h
  split at h
  · rename_i s'' hcreate
    cases h
    refine congrArg (Flush.mk · none) ?_
    change { s.createBackup.2 with backup := s.createBackup.2.backup.close } = _
    rw [hcreate]
  · cases h

/-! ## The tally -/

/-- The batches that the memory has, those that a backup in the making has read, and those that the file
    keeps, all since the start of the run. -/
structure Tally where
  added : List (List Metric)
  read? : Option (List (List Metric))
  kept : List (List Metric)

namespace Tally

/-- No batches yet. -/
def zero : Tally :=
  ⟨[], none, []⟩

/-- The count after an event. A backup keeps the batches that were there when it read the memory, and a
    restart finds the batches that the file keeps. -/
def step (t : Tally) : Event → Tally
  | .add metrics => { t with added := t.added ++ [metrics] }
  | .read =>
    match t.read? with
    | none => { t with read? := some t.added }
    | some _ => t
  | .rewrite =>
    match t.read? with
    | some batches => { t with read? := none, kept := batches }
    | none => t
  | .close => t
  | .restart => { t with added := t.kept, read? := none }

def run (t : Tally) (events : List Event) : Tally :=
  events.foldl step t

theorem step_read {t : Tally} (h : t.read? = none) :
    t.step .read = { t with read? := some t.added } := by
  unfold step
  rw [h]

theorem step_rewrite {t : Tally} {batches : List (List Metric)} (h : t.read? = some batches) :
    t.step .rewrite = { t with read? := none, kept := batches } := by
  unfold step
  rw [h]

/-- The file keeps the first batches of those that were read, and these are the first in memory. -/
structure Ordered (t : Tally) : Prop where
  kept : t.kept <+: t.added
  read : ∀ batches ∈ t.read?, t.kept <+: batches ∧ batches <+: t.added

theorem ordered_zero : zero.Ordered :=
  ⟨List.prefix_refl _, fun _ h => nomatch h⟩

theorem Ordered.step {t : Tally} (h : t.Ordered) (e : Event) : (t.step e).Ordered := by
  obtain ⟨added, read?, kept⟩ := t
  obtain ⟨hkept, hread⟩ := h
  cases e with
  | add metrics =>
    refine ⟨hkept.trans (List.prefix_append _ _), fun batches hbatches => ?_⟩
    obtain ⟨h₁, h₂⟩ := hread batches hbatches
    exact ⟨h₁, h₂.trans (List.prefix_append _ _)⟩
  | read =>
    cases read? with
    | none =>
      refine ⟨hkept, fun batches hbatches => ?_⟩
      cases hbatches
      exact ⟨hkept, List.prefix_refl _⟩
    | some _ => exact ⟨hkept, hread⟩
  | rewrite =>
    cases read? with
    | none => exact ⟨hkept, hread⟩
    | some batches => exact ⟨(hread batches rfl).2, fun _ h => nomatch h⟩
  | close => exact ⟨hkept, hread⟩
  | restart => exact ⟨List.prefix_refl _, fun _ h => nomatch h⟩

theorem Ordered.run {t : Tally} (h : t.Ordered) (events : List Event) : (t.run events).Ordered := by
  induction events generalizing t with
  | nil => exact h
  | cons e events ih => exact ih (h.step e)

/-- What the file keeps stays in it. -/
theorem Ordered.kept_step {t : Tally} (h : t.Ordered) (e : Event) : t.kept <+: (t.step e).kept := by
  obtain ⟨added, read?, kept⟩ := t
  cases e with
  | read => cases read? <;> exact List.prefix_refl _
  | rewrite =>
    cases read? with
    | none => exact List.prefix_refl _
    | some batches => exact (h.read batches rfl).1
  | _ => exact List.prefix_refl _

theorem Ordered.kept_run {t : Tally} (h : t.Ordered) (events : List Event) :
    t.kept <+: (t.run events).kept := by
  induction events generalizing t with
  | nil => exact List.prefix_refl _
  | cons e events ih => exact (h.kept_step e).trans (ih (h.step e))

/-- A backup that has read batches has them until the file keeps them. -/
theorem Ordered.read_run {t : Tally} (h : t.Ordered) {batches : List (List Metric)}
    (hread : t.read? = some batches ∨ batches <+: t.kept) {events : List Event}
    (hlife : Event.restart ∉ events) :
    (t.run events).read? = some batches ∨ batches <+: (t.run events).kept := by
  induction events generalizing t with
  | nil => exact hread
  | cons e events ih =>
    refine ih (h.step e) ?_ fun hmem => hlife (List.mem_cons_of_mem _ hmem)
    rcases hread with hread | hkept
    · obtain ⟨added, read?, kept⟩ := t
      cases hread
      cases e with
      | rewrite => exact .inr (List.prefix_refl _)
      | restart => exact absurd List.mem_cons_self hlife
      | _ => exact .inl rfl
    · exact .inr (hkept.trans (h.kept_step e))

/-- The batches that were there when a backup that finished has read the memory stay in the file. -/
theorem Ordered.kept_of_finished {t : Tally} (h : t.Ordered) (hidle : t.read? = none)
    {between : List Event} (hlife : Event.restart ∉ between) (after : List Event) :
    t.added <+: (t.run (.read :: between ++ .rewrite :: after)).kept := by
  have hread : (t.step .read).read? = some t.added := by rw [step_read hidle]
  have hbetween := (h.step .read).read_run (.inl hread) hlife
  have hordered := (h.step .read).run between
  have hfinished : t.added <+: (((t.step .read).run between).step .rewrite).kept := by
    rcases hbetween with hread | hkept
    · rw [step_rewrite hread]
    · exact hkept.trans (hordered.kept_step .rewrite)
  refine hfinished.trans ?_
  have hrun : t.run (.read :: between ++ .rewrite :: after) =
      (((t.step .read).run between).step .rewrite).run after := by
    unfold Tally.run
    rw [List.cons_append, List.foldl_cons, List.foldl_append, List.foldl_cons]
  rw [hrun]
  exact (hordered.step .rewrite).kept_run after

/-- Without a backup that has finished, the file keeps no batch of the run. -/
theorem kept_of_unfinished {t : Tally} {events : List Event} (h : Event.rewrite ∉ events) :
    (t.run events).kept = t.kept := by
  induction events generalizing t with
  | nil => rfl
  | cons e events ih =>
    refine (ih fun hmem => h (List.mem_cons_of_mem _ hmem)).trans ?_
    cases e with
    | read =>
      unfold step
      cases t.read? <;> rfl
    | rewrite => exact absurd List.mem_cons_self h
    | _ => rfl

end Tally

/-! ## The tally counts right -/

open Backup.FileBackup (Writable)

/-- A storage that was restored from a file at a path has the batches that a tally counts. -/
structure Counted (path : String) (start : Storage) (f : Flush) (t : Tally) : Prop where
  backup_eq : f.storage.backup = .file ⟨some path⟩
  async : f.storage.sync = false
  writable : Writable path f.storage.site.disk
  filed : f.storage.memory.Filed f.storage.instances
  memory : f.storage.snapshot = (start.addAll t.added).snapshot
  read_eq : f.read? = t.read?.map fun batches => (start.addAll batches).snapshot
  kept : ∃ s, f.storage.restart = (.ok (), s) ∧ s.snapshot = (start.addAll t.kept).snapshot
  ordered : t.Ordered
  named : ∀ batch ∈ t.added, ∀ m ∈ batch, m.name ≠ ""

/-- No event but the rewriting by a backup changes the site. -/
theorem site_step {f : Flush} (hasync : f.storage.sync = false) {e : Event} (he : e ≠ .rewrite) :
    (f.step e).storage.site = f.storage.site := by
  cases e with
  | add metrics => exact Storage.site_addNew hasync metrics
  | read =>
    unfold step
    cases f.read? <;> rfl
  | rewrite => exact absurd rfl he
  | close => rfl
  | restart => exact (Storage.restoreFromBackup_frame _).2.2

theorem Counted.add {path : String} {start : Storage} {f : Flush} {t : Tally}
    (h : Counted path start f t) (hfiled : start.memory.Filed start.instances)
    {metrics : List Metric} (hmetrics : ∀ m ∈ metrics, m.name ≠ "") :
    Counted path start (f.step (.add metrics)) (t.step (.add metrics)) where
  backup_eq := (Storage.backup_addNew f.storage metrics).trans h.backup_eq
  async := (Storage.sync_addNew f.storage metrics).trans h.async
  writable := by
    change Writable path (f.storage.addNew metrics).2.site.disk
    rw [Storage.site_addNew h.async]
    exact h.writable
  filed := Storage.filed_addNew h.filed metrics
  memory := by
    change (f.storage.addNew metrics).2.snapshot = (start.addAll (t.added ++ [metrics])).snapshot
    rw [Storage.addAll_append_singleton]
    exact Storage.snapshot_addNew_congr h.filed (Storage.filed_addAll hfiled t.added) h.memory metrics
  read_eq := h.read_eq
  kept := by
    change ∃ s, (f.storage.addNew metrics).2.restart = _ ∧ _
    rw [Storage.restart_congr (Storage.backup_addNew f.storage metrics)
      (Storage.sync_addNew f.storage metrics) (Storage.site_addNew h.async metrics)]
    exact h.kept
  ordered := h.ordered.step _
  named := by
    intro batch hbatch
    rcases List.mem_append.mp hbatch with hbatch | hbatch
    · exact h.named batch hbatch
    · obtain rfl := List.mem_singleton.mp hbatch
      exact hmetrics

/-- A backup that rewrites the file leaves in it the batches that it has read. -/
theorem Counted.rewrite {path : String} {start s : Storage} {t : Tally} {batches : List (List Metric)}
    (h : Counted path start ⟨s, some (start.addAll batches).snapshot⟩ t)
    (hfiled : start.memory.Filed start.instances) (hnamed : start.Named)
    (hread : t.read? = some batches) :
    Counted path start (Flush.step ⟨s, some (start.addAll batches).snapshot⟩ .rewrite)
      (t.step .rewrite) := by
  have hordered := h.ordered.step .rewrite
  have hbatches : (start.addAll batches).Named :=
    Storage.named_addAll hfiled hnamed fun batch hbatch =>
      h.named batch ((h.ordered.read batches hread).2.subset hbatch)
  obtain ⟨site, hoverwrite, hwritable, hrestart⟩ := Storage.overwrite_restart h.backup_eq
    h.writable (Storage.filed_addAll hfiled batches) hbatches
  have hstep : Flush.step ⟨s, some (start.addAll batches).snapshot⟩ .rewrite =
      ⟨{ s with site }, none⟩ :=
    congrArg (fun p : Outcome Unit × Storage => Flush.mk p.2 none) hoverwrite
  rw [Tally.step_rewrite hread] at hordered ⊢
  rw [hstep]
  exact ⟨h.backup_eq, h.async, hwritable, h.filed, h.memory, rfl, hrestart, hordered, h.named⟩

/-- A process that starts again has the batches that the file keeps. -/
theorem Counted.restart {path : String} {start : Storage} {f : Flush} {t : Tally}
    (h : Counted path start f t) : Counted path start (f.step .restart) (t.step .restart) := by
  obtain ⟨u, hrestart, hsnapshot⟩ := h.kept
  have hstep : f.step .restart = ⟨u, none⟩ :=
    congrArg (fun p : Outcome Unit × Storage => Flush.mk p.2 none) hrestart
  obtain ⟨hbackup, hsync, hsite⟩ :=
    Storage.restoreFromBackup_frame (.start .empty f.storage.backup f.storage.sync f.storage.site)
  rw [show Storage.restoreFromBackup _ = _ from hrestart] at hbackup hsync hsite
  rw [hstep]
  refine ⟨hbackup.trans h.backup_eq, hsync.trans h.async, ?_, Storage.filed_of_restored hrestart,
    hsnapshot, rfl, ?_, h.ordered.step .restart, fun batch hbatch => ?_⟩
  · change Writable path u.site.disk
    rw [hsite]
    exact h.writable
  · change ∃ v, u.restart = _ ∧ _
    rw [Storage.restart_congr hbackup hsync hsite]
    exact h.kept
  · exact h.named batch (h.ordered.kept.subset hbatch)

theorem Counted.step {path : String} {start : Storage} {f : Flush} {t : Tally}
    (h : Counted path start f t) (hfiled : start.memory.Filed start.instances)
    (hnamed : start.Named) {e : Event} (he : e.Named) :
    Counted path start (f.step e) (t.step e) := by
  cases e with
  | add metrics => exact h.add hfiled he
  | read =>
    have hordered := h.ordered.step .read
    obtain ⟨s, read?⟩ := f
    obtain ⟨added, batches?, kept⟩ := t
    cases h.read_eq
    cases batches? with
    | none =>
      exact ⟨h.backup_eq, h.async, h.writable, h.filed, h.memory, congrArg some h.memory, h.kept,
        hordered, h.named⟩
    | some batches => exact h
  | rewrite =>
    obtain ⟨s, read?⟩ := f
    obtain ⟨added, batches?, kept⟩ := t
    cases h.read_eq
    cases batches? with
    | none => exact h
    | some batches => exact h.rewrite hfiled hnamed rfl
  | close =>
    obtain ⟨⟨instances, memory, backup, sync, site⟩, read?⟩ := f
    cases h.backup_eq
    exact h
  | restart => exact h.restart

theorem Counted.run {path : String} {start : Storage} {f : Flush} {t : Tally}
    (h : Counted path start f t) (hfiled : start.memory.Filed start.instances)
    (hnamed : start.Named) {events : List Event} (hevents : ∀ e ∈ events, e.Named) :
    Counted path start (f.run events) (t.run events) := by
  induction events generalizing f t with
  | nil => exact h
  | cons e events ih =>
    exact ih (h.step hfiled hnamed (hevents e List.mem_cons_self))
      fun other hother => hevents other (List.mem_cons_of_mem _ hother)

/-- A storage counts from where it was restored. -/
theorem counted_zero {path : String} {instances : Instances} {site : Site} {start : Storage}
    (hwritable : Writable path site.disk)
    (hstart : (Storage.start instances (.file ⟨some path⟩) false site).restoreFromBackup =
      (.ok (), start)) : Counted path start ⟨start, none⟩ .zero := by
  obtain ⟨hbackup, hsync, hsite⟩ :=
    Storage.restoreFromBackup_frame (.start instances (.file ⟨some path⟩) false site)
  rw [hstart] at hbackup hsync hsite
  refine ⟨hbackup, hsync, ?_, Storage.filed_of_restored hstart, rfl, rfl,
    Storage.restart_of_restored hstart, Tally.ordered_zero, fun _ h => nomatch h⟩
  rw [hsite]
  exact hwritable

/-- In async mode over a file, whatever the order in which additions fall between the steps of backups,
    the memory has the batches that were added, and a restart gives the snapshot after the first of them:
    all those that were there when a backup that finished has read the memory, and none if no backup has
    finished. The site changes when a backup rewrites the file and at no other event. -/
theorem restart_keeps_flushed_batches {path : String} {instances : Instances} {site : Site}
    {start : Storage} (hwritable : Writable path site.disk)
    (hstart : (Storage.start instances (.file ⟨some path⟩) false site).restoreFromBackup =
      (.ok (), start)) {events : List Event} (hnamed : ∀ e ∈ events, e.Named) :
    let f := run ⟨start, none⟩ events
    let t := Tally.zero.run events
    f.storage.snapshot = (start.addAll t.added).snapshot ∧
    t.kept <+: t.added ∧
    (∃ s, f.storage.restart = (.ok (), s) ∧ s.snapshot = (start.addAll t.kept).snapshot) ∧
    (∀ before between after, events = before ++ (.read :: between ++ .rewrite :: after) →
      (Tally.zero.run before).read? = none → Event.restart ∉ between →
      (Tally.zero.run before).added <+: t.kept) ∧
    (Event.rewrite ∉ events → t.kept = []) ∧
    ∀ e : Event, e ≠ .rewrite → (f.step e).storage.site = f.storage.site := by
  intro f t
  have h : Counted path start f t := (counted_zero hwritable hstart).run
    (Storage.filed_of_restored hstart) (Storage.named_of_restored rfl hstart) hnamed
  refine ⟨h.memory, h.ordered.kept, h.kept, ?finished, Tally.kept_of_unfinished,
    fun e => site_step h.async⟩
  case finished =>
    rintro before between after rfl hidle hlife
    have hrun : t = (Tally.zero.run before).run (.read :: between ++ .rewrite :: after) :=
      List.foldl_append
    rw [hrun]
    exact (Tally.ordered_zero.run before).kept_of_finished hidle hlife after

/-- A batch that comes between the two steps of a backup is lost with the process, and the one before is
    kept. -/
theorem restart_keeps_batch_before_flush :
    let site : Site := ⟨Disk.empty.put "b" (.file []), .empty⟩
    let start := Storage.start .empty (.file ⟨some "b"⟩) false site
    let events : List Event :=
      [.add [⟨"a", .counter 1⟩], .read, .add [⟨"a", .counter 2⟩], .rewrite]
    Writable "b" site.disk ∧ start.restoreFromBackup = (.ok (), start) ∧
      (∀ e ∈ events, e.Named) ∧
      ∃ s, (run ⟨start, none⟩ events).storage.restart = (.ok (), s) ∧
        s.snapshot = (start.addAll [[⟨"a", .counter 1⟩]]).snapshot := by
  intro site start events
  have hwritable : Writable "b" site.disk := Backup.FileBackup.writable_put_file
  have hstart : start.restoreFromBackup = (.ok (), start) := rfl
  have hnamed : ∀ e ∈ events, e.Named := by simp [events, Event.Named]
  exact ⟨hwritable, hstart, hnamed,
    (restart_keeps_flushed_batches hwritable hstart hnamed).2.2.1⟩

end Flush

end Telemetry

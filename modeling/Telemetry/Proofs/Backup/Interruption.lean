-- SUMMARY: Writes of a backup file that are stopped anywhere: the file is the old or the new one, and so is what is read later.
import Mathlib
import Telemetry.Proofs.Backup.Changes

/-!
# Interruption

A process may end at any moment of a write, and any step of a write may fail. Until the new file is moved
to its place only the file beside it changes, and the move is a single step. So whatever is left, the
backup can be opened as before, and it has the old records or the new ones.
-/

namespace Telemetry.Backup.FileBackup

/-! ## Writes that come to an end -/

theorem write_eq_ok_iff {path : String} {records : List Record} {d d' : Disk} :
    write ⟨some path⟩ records d = (.ok (), d') ↔
      d.runSteps (writeSteps path records) = (.ok (), d') := by
  unfold write
  cases hsteps : d.runSteps (writeSteps path records) with
  | mk result d₁ => cases result <;> simp [hsteps, Except.mapError]

theorem interrupted_of_write {path : String} {records : List Record} {d d' : Disk} {e : Error}
    (h : write ⟨some path⟩ records d = (.error e, d')) :
    d.Interrupted (writeSteps path records) d' := by
  unfold write at h
  cases hsteps : d.runSteps (writeSteps path records) with
  | mk result d₁ =>
    simp only [hsteps, Prod.mk.injEq] at h
    obtain ⟨hresult, rfl⟩ := h
    cases result with
    | ok _ => cases hresult
    | error fault => exact Disk.interrupted_of_runSteps hsteps

/-- Only on a disk that takes writes do all steps succeed. -/
theorem writable_of_runSteps {path : String} {records : List Record} {d d' : Disk}
    (h : d.runSteps (writeSteps path records) = (.ok (), d')) : Writable path d := by
  by_contra hwritable
  by_cases htarget : d.entry? path = some .directory
  · -- The first steps leave the directory alone, and nothing is moved over it.
    rw [writeSteps_eq, Disk.runSteps_concat_eq_ok_iff] at h
    obtain ⟨d₁, hfirst, hrename⟩ := h
    have hentry : Disk.entry? (d.runSteps (firstSteps path records)).2 path = d.entry? path :=
      Disk.entry?_runSteps_of_spares (spares_firstSteps (scratchPath_ne path).symm records)
    rw [hfirst, htarget] at hentry
    unfold Disk.Step.run at hrename
    cases hread : d₁.read (scratchPath path) <;> simp [hread, hentry] at hrename
  · obtain ⟨e, hwrite⟩ := write_of_not_writable htarget hwritable records
    rw [write_eq_ok_iff.mpr h] at hwrite
    cases hwrite

/-- The disk after all steps. -/
theorem entry?_of_runSteps {path : String} {records : List Record} {d d' : Disk}
    (h : d.runSteps (writeSteps path records) = (.ok (), d')) (p : String) :
    d'.entry? p = replaced path (Record.writeFile records).toUTF8.toList d p := by
  obtain ⟨d₁, hwrite, hentry⟩ := write_eq (writable_of_runSteps h) records
  rw [write_eq_ok_iff.mpr h] at hwrite
  cases hwrite
  exact hentry p

/-- A write that was not finished has changed nothing but the file beside the one that it replaces. -/
theorem entry?_of_interrupted {path : String} {records : List Record} {d d' : Disk}
    (h : d.Interrupted (writeSteps path records) d') {p : String} (hp : p ≠ scratchPath path) :
    d'.entry? p = d.entry? p :=
  Disk.Interrupted.entry?_of_spares h (spares_firstSteps hp records)

/-! ## Opening -/

/-- Opening a file that is there changes nothing, and one that is not there is made without records. -/
theorem openAt_eq_ok_iff {raw : String} (hraw : raw ≠ "") {d d' : Disk} {b : FileBackup} :
    openAt raw d = (.ok b, d') ↔ ⟨some (Path.canonical raw)⟩ = b ∧
      (d.entry? (Path.canonical raw) ≠ none ∧ d = d' ∨
        d.entry? (Path.canonical raw) = none ∧
          ∃ d₁, d.makeFolders (Path.ancestors (Path.canonical raw)) = (.ok (), d₁) ∧
            write ⟨some (Path.canonical raw)⟩ [] d₁ = (.ok (), d')) := by
  have hfilled : ¬ raw.isEmpty = true := mt String.isEmpty_iff.mp hraw
  unfold openAt Disk.exists?
  rw [if_neg hfilled]
  dsimp only
  cases hentry : d.entry? (Path.canonical raw) with
  | some e => simp
  | none =>
    cases hfolders : d.makeFolders (Path.ancestors (Path.canonical raw)) with
    | mk result d₁ =>
      cases result with
      | error fault => simp [within, fail, Except.mapError]
      | ok _ =>
        cases hwrite : write ⟨some (Path.canonical raw)⟩ [] d₁ with
        | mk result d₂ => cases result <;> simp [hwrite, within, Except.mapError, Except.map]

/-- What is read from a file that is there depends on nothing else. -/
theorem records_of_entry?_eq {path : String} {d d' : Disk} (h : d'.entry? path = d.entry? path)
    (hthere : d.entry? path ≠ none) :
    (⟨some path⟩ : FileBackup).records d' = (⟨some path⟩ : FileBackup).records d := by
  unfold FileBackup.records Disk.read
  dsimp only
  rw [h]
  cases hentry : d.entry? path with
  | none => exact absurd hentry hthere
  | some e => cases e <;> rfl

/-- The folders of a missing file can be made after an interruption as they could before. -/
theorem makeFolders_of_interrupted {path : String} {d d₁ d' : Disk} {records : List Record}
    (hfolders : d.makeFolders (Path.ancestors path) = (.ok (), d₁)) (hwritable : Writable path d₁)
    (h : d.Interrupted (writeSteps path records) d') :
    ∃ d₂, d'.makeFolders (Path.ancestors path) = (.ok (), d₂) ∧ Writable path d₂ := by
  have hsame : ∀ p, p ≠ scratchPath path → d'.entry? p = d.entry? p :=
    fun p hp => entry?_of_interrupted h hp
  have hmade := Disk.entry?_of_makeFolders hfolders
  have hscratch : scratchPath path ∉ Path.ancestors path := by
    intro hmem
    apply hwritable.scratch
    simp [hmade, hmem]
  obtain ⟨d₂, hfolders'⟩ : ∃ d₂, d'.makeFolders (Path.ancestors path) = (.ok (), d₂) := by
    apply Disk.exists_makeFolders_eq_ok_iff.mpr
    intro folder hmem
    rw [hsame folder fun heq => hscratch (heq ▸ hmem)]
    exact Disk.exists_makeFolders_eq_ok_iff.mp ⟨d₁, hfolders⟩ folder hmem
  have hmade' := Disk.entry?_of_makeFolders hfolders'
  -- All but the file beside is as it was when the folders were made without an interruption.
  have hagree : ∀ p, p ≠ scratchPath path → d₂.entry? p = d₁.entry? p := by
    intro p hp
    simp [hmade, hmade', hsame p hp]
  refine ⟨d₂, hfolders', hwritable.of_entry?_eq (fun p _ hp => hagree p hp) ?_ ?_⟩
  · intro hdirectory
    apply hwritable.scratch
    rw [hmade', if_neg hscratch] at hdirectory
    rw [hmade, if_neg hscratch]
    exact h.entry?_eq_directory hdirectory
  · rw [hagree path (scratchPath_ne path).symm]
    exact hwritable.target

/-- A backup that could be opened before a write can be opened after an interruption, with the records from
    before. -/
theorem openAt_of_interrupted {raw : String} (hraw : raw ≠ "") {d d' opened : Disk} {b : FileBackup}
    (hopen : openAt raw d = (.ok b, opened)) {records : List Record}
    (h : d.Interrupted (writeSteps (Path.canonical raw) records) d') :
    ∃ reopened, openAt raw d' = (.ok b, reopened) ∧ b.records reopened = b.records opened := by
  have hpath : d'.entry? (Path.canonical raw) = d.entry? (Path.canonical raw) :=
    entry?_of_interrupted h (scratchPath_ne _).symm
  simp only [openAt_eq_ok_iff hraw] at hopen ⊢
  obtain ⟨rfl, ⟨hthere, rfl⟩ | ⟨hmissing, d₁, hfolders, hwrite⟩⟩ := hopen
  · exact ⟨d', ⟨rfl, .inl ⟨hpath ▸ hthere, rfl⟩⟩, records_of_entry?_eq hpath hthere⟩
  · -- Both times the file is made without records.
    have hsteps := write_eq_ok_iff.mp hwrite
    obtain ⟨d₂, hfolders', hwritable⟩ :=
      makeFolders_of_interrupted hfolders (writable_of_runSteps hsteps) h
    obtain ⟨d₃, hwrite', -, hrecords⟩ := write_ok hwritable []
    exact ⟨d₃, ⟨rfl, .inr ⟨hpath.trans hmissing, d₂, hfolders', hwrite'⟩⟩,
      hrecords.trans (records_of_replaced (entry?_of_runSteps hsteps)).symm⟩

/-- After all steps of a write the backup can be opened with the records that were written. -/
theorem openAt_of_runSteps {raw : String} (hraw : raw ≠ "") {d d' : Disk} {records : List Record}
    (h : d.runSteps (writeSteps (Path.canonical raw) records) = (.ok (), d')) :
    openAt raw d' = (.ok ⟨some (Path.canonical raw)⟩, d') ∧
      (⟨some (Path.canonical raw)⟩ : FileBackup).records d' = .ok records := by
  have hentry := entry?_of_runSteps h
  refine ⟨(openAt_eq_ok_iff hraw).mpr ⟨rfl, .inl ⟨?_, rfl⟩⟩, records_of_replaced hentry⟩
  simp [hentry, replaced]

/-! ## Calls that may be stopped -/

/-- The results and disks that a call may leave on a disk whose operations may fail for reasons of their
    own: nothing is written, the write is interrupted, or it comes to its end. -/
inductive Change.Ends (path : String) (d : Disk) (change : Change) : Outcome Unit → Disk → Prop
  | refused (e : Error) : Ends path d change (.error e) d
  | stopped {old : List Record} {d' : Disk} (e : Error) (hread : change.Reads ⟨some path⟩ d old)
      (hstop : d.Interrupted (writeSteps path (change.rewrite old)) d') :
      Ends path d change (.error e) d'
  | done {old : List Record} {d' : Disk} (hread : change.Reads ⟨some path⟩ d old)
      (hsteps : d.runSteps (writeSteps path (change.rewrite old)) = (.ok (), d')) :
      Ends path d change (.ok ()) d'

/-- A call on a disk that fails for no other reasons comes to one of these ends. -/
theorem Change.ends_call (path : String) (d : Disk) (change : Change) :
    change.Ends path d (change.call ⟨some path⟩ d).1 (change.call ⟨some path⟩ d).2 := by
  have hends : ∀ old, change.Reads ⟨some path⟩ d old →
      change.Ends path d (change.call ⟨some path⟩ d).1 (change.call ⟨some path⟩ d).2 := by
    intro old hread
    obtain ⟨context, hcall⟩ := call_of_reads hread
    cases hwrite : write ⟨some path⟩ (change.rewrite old) d with
    | mk result d' =>
      rw [hcall, hwrite]
      cases result with
      | ok _ => exact .done hread (write_eq_ok_iff.mp hwrite)
      | error e => exact .stopped _ hread (interrupted_of_write hwrite)
  cases change with
  | restore s => exact hends [] trivial
  | add batch =>
    cases hold : (⟨some path⟩ : FileBackup).records d with
    | ok old => exact hends old hold
    | error e =>
      simp only [call, FileBackup.add, hold, within_error]
      exact .refused _

theorem Change.Ends.entry?_of_error {path : String} {d d' : Disk} {change : Change} {e : Error}
    (h : change.Ends path d (.error e) d') : d'.entry? path = d.entry? path := by
  cases h with
  | refused => rfl
  | stopped _ _ hstop => exact entry?_of_interrupted hstop (scratchPath_ne path).symm

/-- Wherever a write is interrupted, the file is as before, and after all its steps it is the new one; on a
    disk that takes the file all steps succeed. A backup that could be opened before the write can be opened
    afterwards, with the records from before or the new ones. The calls that change the file are such reads
    and writes, so one that fails, in whatever way, leaves the file as it was. -/
theorem stopped_write_leaves_old_or_new (path : String) (d : Disk) :
    (∀ records d', d.Interrupted (writeSteps path records) d' → d'.entry? path = d.entry? path) ∧
    (∀ records d', d.runSteps (writeSteps path records) = (.ok (), d') →
      d'.entry? path = some (.file (Record.writeFile records).toUTF8.toList)) ∧
    (Writable path d → ∀ records, ∃ d', d.runSteps (writeSteps path records) = (.ok (), d')) ∧
    (∀ raw b opened, raw ≠ "" → Path.canonical raw = path → openAt raw d = (.ok b, opened) →
      ∀ records d', d.Interrupted (writeSteps path records) d' ∨
          d.runSteps (writeSteps path records) = (.ok (), d') →
        ∃ reopened, openAt raw d' = (.ok b, reopened) ∧
          (b.records reopened = b.records opened ∨ b.records reopened = .ok records)) ∧
    (∀ change : Change,
      change.Ends path d (change.call ⟨some path⟩ d).1 (change.call ⟨some path⟩ d).2) ∧
    ∀ (change : Change) e d', change.Ends path d (.error e) d' → d'.entry? path = d.entry? path := by
  refine ⟨?_, ?_, ?_, ?_, Change.ends_call path d, fun _ _ _ => Change.Ends.entry?_of_error⟩
  · intro records d' h
    exact entry?_of_interrupted h (scratchPath_ne path).symm
  · intro records d' h
    simp [entry?_of_runSteps h, replaced]
  · intro hwritable records
    obtain ⟨d', hwrite, -⟩ := write_ok hwritable records
    exact ⟨d', write_eq_ok_iff.mp hwrite⟩
  · rintro raw b opened hraw rfl hopen records d' (hstop | hdone)
    · obtain ⟨reopened, hreopen, hold⟩ := openAt_of_interrupted hraw hopen hstop
      exact ⟨reopened, hreopen, .inl hold⟩
    · obtain ⟨hreopen, hnew⟩ := openAt_of_runSteps hraw hdone
      obtain ⟨rfl, -⟩ := (openAt_eq_ok_iff hraw).mp hopen
      exact ⟨d', hreopen, .inr hnew⟩

/-- Three bytes are written beside a file that is no list of records, in place of what an earlier
    interruption has left there. -/
theorem stopped_write_over_corrupt_file :
    let b : FileBackup := ⟨some "b"⟩
    let d := (Disk.empty.put "b" (.file [0x7b])).put (scratchPath "b") (.file [0x5b])
    let records := [Record.ofEntry ⟨"counter", "a", "5"⟩]
    let content := (Record.writeFile records).toUTF8.toList
    let d' := (d.put (scratchPath "b") (.file [])).put (scratchPath "b") (.file (content.take 3))
    openAt "b" d = (.ok b, d) ∧ d.Interrupted (writeSteps "b" records) d' ∧
      d'.entry? "b" = some (.file [0x7b]) ∧
      ∃ reopened, openAt "b" d' = (.ok b, reopened) ∧
        (b.records reopened = b.records d ∨ b.records reopened = .ok records) := by
  intro b d records content d'
  have hpath : Path.canonical "b" = "b" := by
    cbv
  have hopen : openAt "b" d = (.ok b, d) := by
    rw [openAt_eq_ok_iff (by decide), hpath]
    exact ⟨rfl, .inl ⟨by decide +kernel, rfl⟩⟩
  have hcreate : Disk.Step.run d (.create (scratchPath "b")) =
      .ok (d.put (scratchPath "b") (.file [])) := by
    apply Disk.run_create
    · exact Disk.folderFault?_eq_none_iff.mpr (by simp [ancestors_scratchPath_b])
    · decide +kernel
  have hread : Disk.read (d.put (scratchPath "b") (.file [])) (scratchPath "b") = .ok [] :=
    Disk.read_of_file (by simp)
  have hstop : d.Interrupted (writeSteps "b" records) d' :=
    .after hcreate (.within content 3 _ hread)
  obtain ⟨hold, -, -, hreopen, -⟩ := stopped_write_leaves_old_or_new "b" d
  refine ⟨hopen, hstop, (hold records d' hstop).trans (by decide +kernel), ?_⟩
  exact hreopen "b" b d (by decide) hpath hopen records d' (.inl hstop)

end Telemetry.Backup.FileBackup

-- SUMMARY: The file backup on a disk that takes writes: what is kept after each operation, as a snapshot.
import Telemetry.Backup.File
import Telemetry.Proofs.Backup.Records
import Telemetry.Proofs.Disk
import Telemetry.Proofs.Outcome
import Telemetry.Proofs.Snapshot

/-!
# The file backup

On a disk that takes writes, every operation succeeds and leaves such a disk. What the file keeps is seen
as a snapshot. The list of records behind it may have several records for one key, of which the last
counts; storing a batch puts the entries of the batch into the snapshot, and restoring replaces it.
-/

namespace Telemetry

/-- The entry that a metric has in snapshots. -/
def Metric.entry (m : Metric) : Snapshot.Entry :=
  ⟨m.kind.name, m.name, m.value.text⟩

/-- No part of an entry is empty. -/
def Snapshot.Entry.Complete (e : Snapshot.Entry) : Prop :=
  e.type ≠ "" ∧ e.name ≠ "" ∧ e.value ≠ ""

theorem find?_filter_of_imp {α : Type} {p q : α → Bool} {xs : List α}
    (h : ∀ x ∈ xs, q x = true → p x = true) : (xs.filter p).find? q = xs.find? q := by
  induction xs with
  | nil => rfl
  | cons x xs ih =>
    have ih := ih fun y hy => h y (List.mem_cons_of_mem _ hy)
    rw [List.filter_cons, List.find?_cons]
    cases hq : q x with
    | true => rw [if_pos (h x List.mem_cons_self hq), List.find?_cons, hq]
    | false =>
      split
      · rw [List.find?_cons, hq]
        exact ih
      · exact ih

/-- Leaving out entries for other keys keeps the last entry for a key. -/
theorem Snapshot.last?_filter {entries : List Entry} {p : Entry → Bool} {type name : String}
    (h : ∀ e ∈ entries, e.isFor type name = true → p e = true) :
    last? (entries.filter p) type name = last? entries type name := by
  unfold last?
  rw [← List.filter_reverse,
    find?_filter_of_imp fun e he => h e (List.mem_reverse.mp he)]

namespace Backup

theorem Record.complete_ofEntry {e : Snapshot.Entry} (h : e.Complete) :
    (ofEntry e).complete = .ok e := by
  have hpresent : ∀ {text : String} (missing : Cause), text ≠ "" →
      present (some text) missing = .ok text := by
    intro text missing hne
    unfold present
    exact if_neg fun hempty => hne (String.isEmpty_iff.mp hempty)
  unfold complete ofEntry
  rw [hpresent _ h.1, hpresent _ h.2.1, hpresent _ h.2.2]
  rfl

theorem Record.mapM_complete_ofEntry {entries : List Snapshot.Entry}
    (h : ∀ e ∈ entries, e.Complete) : (entries.map ofEntry).mapM complete = .ok entries := by
  induction entries with
  | nil => rfl
  | cons e entries ih =>
    rw [List.map_cons, List.mapM_cons, complete_ofEntry (h e List.mem_cons_self),
      ih fun e he => h e (List.mem_cons_of_mem _ he)]
    rfl

theorem Record.present_eq_ok_iff {part : Option String} {missing : Cause} {text : String} :
    present part missing = .ok text ↔ part = some text ∧ text ≠ "" := by
  unfold present
  cases part with
  | none => exact ⟨(nomatch ·), (nomatch ·.1)⟩
  | some text' =>
    dsimp only
    split
    · rename_i hempty
      refine ⟨(nomatch ·), ?_⟩
      rintro ⟨h, hne⟩
      cases h
      exact absurd (String.isEmpty_iff.mp hempty) hne
    · rename_i hempty
      constructor
      · intro h
        cases h
        exact ⟨rfl, fun heq => hempty (String.isEmpty_iff.mpr heq)⟩
      · rintro ⟨h, -⟩
        cases h
        rfl

/-- A complete record is the record of its entry. -/
theorem Record.complete_eq_ok_iff {r : Record} {e : Snapshot.Entry} :
    r.complete = .ok e ↔ r = ofEntry e ∧ e.Complete := by
  constructor
  · intro h
    obtain ⟨type, htype, h⟩ := bind_eq_ok_iff.mp h
    obtain ⟨name, hname, h⟩ := bind_eq_ok_iff.mp h
    obtain ⟨value, hvalue, h⟩ := bind_eq_ok_iff.mp h
    cases h
    obtain ⟨htype, htype'⟩ := present_eq_ok_iff.mp htype
    obtain ⟨hname, hname'⟩ := present_eq_ok_iff.mp hname
    obtain ⟨hvalue, hvalue'⟩ := present_eq_ok_iff.mp hvalue
    obtain ⟨type', name', value'⟩ := r
    cases htype
    cases hname
    cases hvalue
    exact ⟨rfl, htype', hname', hvalue'⟩
  · rintro ⟨rfl, h⟩
    exact complete_ofEntry h

theorem Record.mapM_complete_eq_ok_iff {records : List Record} {entries : List Snapshot.Entry} :
    records.mapM complete = .ok entries ↔
      records = entries.map ofEntry ∧ ∀ e ∈ entries, e.Complete := by
  constructor
  · intro h
    induction records generalizing entries with
    | nil =>
      cases h
      exact ⟨rfl, List.forall_mem_nil _⟩
    | cons r records ih =>
      obtain ⟨e, others, he, hothers, rfl⟩ := mapM_cons_eq_ok_iff.mp h
      obtain ⟨rfl, hcomplete⟩ := complete_eq_ok_iff.mp he
      obtain ⟨rfl, hrest⟩ := ih hothers
      exact ⟨rfl, List.forall_mem_cons.mpr ⟨hcomplete, hrest⟩⟩
  · rintro ⟨rfl, h⟩
    exact mapM_complete_ofEntry h

namespace FileBackup

/-! ## Reading -/

/-- A snapshot is read exactly if all records are complete, and the last one for each key counts. -/
theorem snapshot_eq_ok_iff {b : FileBackup} {d : Disk} {s : Snapshot} :
    b.snapshot d = .ok s ↔ ∃ entries : List Snapshot.Entry,
      b.records d = .ok (entries.map .ofEntry) ∧ (∀ e ∈ entries, e.Complete) ∧
        Snapshot.ofEntries entries = s := by
  constructor
  · intro h
    obtain ⟨records, hrecords, hread⟩ := bind_eq_ok_iff.mp h
    obtain ⟨entries, hentries, hsnapshot⟩ := bind_eq_ok_iff.mp hread
    obtain ⟨rfl, hcomplete⟩ := Record.mapM_complete_eq_ok_iff.mp hentries
    exact ⟨entries, within_eq_ok_iff.mp hrecords, hcomplete, Except.ok.inj hsnapshot⟩
  · rintro ⟨entries, hrecords, hcomplete, rfl⟩
    unfold FileBackup.snapshot
    rw [hrecords, within_ok, ok_bind, Record.mapM_complete_ofEntry hcomplete, ok_bind]

theorem populated_of_snapshot {b : FileBackup} {d : Disk} {s : Snapshot}
    (h : b.snapshot d = .ok s) : s.Populated := by
  obtain ⟨entries, -, -, rfl⟩ := snapshot_eq_ok_iff.mp h
  exact Snapshot.populated_ofEntries entries

/-- Every entry of a snapshot that is read is complete. -/
theorem complete_of_mem_snapshot {b : FileBackup} {d : Disk} {s : Snapshot}
    (h : b.snapshot d = .ok s) {e : Snapshot.Entry} (he : e ∈ s.toEntries) : e.Complete := by
  obtain ⟨entries, -, hcomplete, rfl⟩ := snapshot_eq_ok_iff.mp h
  rw [Snapshot.mem_toEntries_iff, Snapshot.value?_ofEntries] at he
  exact hcomplete e (Snapshot.mem_of_last?_eq_some he)

/-! ## Writing -/

theorem scratchPath_ne (path : String) : scratchPath path ≠ path := by
  intro h
  have hlength := congrArg String.length h
  unfold scratchPath at hlength
  rw [String.length_append] at hlength
  exact absurd (Nat.add_eq_left.mp hlength) (by decide)

/-- The disk takes a file at the path, which is first written beside it. -/
structure Writable (path : String) (d : Disk) : Prop where
  folder : d.folderFault? (scratchPath path) = none
  scratch : d.entry? (scratchPath path) ≠ some .directory
  target : d.entry? path ≠ some .directory

/-- The file beside one in the working directory has no folder above it. -/
theorem ancestors_scratchPath_b : Path.ancestors (scratchPath "b") = [] := by
  simp +decide [Path.ancestors, Path.parts, scratchPath, String.splitOn, String.splitOnAux]

/-- A disk that holds nothing else takes a file in the working directory. -/
theorem writable_put_file {content : List UInt8} :
    Writable "b" (Disk.empty.put "b" (.file content)) where
  folder := Disk.folderFault?_eq_none_iff.mpr (by simp [ancestors_scratchPath_b])
  scratch := by simp [scratchPath_ne]
  target := by simp

/-- Whether a disk takes a file depends on the folders and on both places of the file. -/
theorem Writable.of_entry?_eq {path : String} {d d' : Disk} (h : Writable path d)
    (hsame : ∀ p, p ≠ path → p ≠ scratchPath path → d'.entry? p = d.entry? p)
    (hscratch : d'.entry? (scratchPath path) ≠ some .directory)
    (htarget : d'.entry? path ≠ some .directory) : Writable path d' where
  folder := by
    have hfolders := Disk.folderFault?_eq_none_iff.mp h.folder
    refine Disk.folderFault?_eq_none_iff.mpr fun folder hmem => ?_
    have hfolder := hfolders folder hmem
    -- A folder is none of the two files, for they are no folders.
    have hpath : folder ≠ path := fun heq => h.target (heq ▸ hfolder)
    have hne : folder ≠ scratchPath path := fun heq => h.scratch (heq ▸ hfolder)
    exact (hsame folder hpath hne).trans hfolder
  scratch := hscratch
  target := htarget

/-- The disk after a file has been replaced: nothing has changed but the file and the one beside it. -/
def replaced (path : String) (content : List UInt8) (d : Disk) (p : String) : Option Disk.Entry :=
  if p = path then some (.file content) else if p = scratchPath path then none else d.entry? p

theorem write_eq {path : String} {d : Disk} (h : Writable path d) (records : List Record) :
    ∃ d', write ⟨some path⟩ records d = (.ok (), d') ∧
      ∀ p, d'.entry? p = replaced path (Record.writeFile records).toUTF8.toList d p := by
  have hcreate := Disk.run_create h.folder h.scratch
  generalize hcreated : d.put (scratchPath path) (.file []) = created at hcreate
  have hempty : created.entry? (scratchPath path) = some (.file []) := by
    rw [← hcreated, Disk.entry?_put, if_pos rfl]
  have happend := Disk.run_append (Record.writeFile records).toUTF8.toList hempty
  rw [List.nil_append] at happend
  generalize hcontent : (Record.writeFile records).toUTF8.toList = content at happend
  generalize hwritten : created.put (scratchPath path) (.file content) = written at happend
  have hentry : ∀ p, written.entry? p =
      if p = scratchPath path then some (.file content) else d.entry? p := by
    intro p
    rw [← hwritten, ← hcreated, Disk.entry?_put, Disk.entry?_put]
    split <;> rfl
  have hscratch : written.entry? (scratchPath path) = some (.file content) := by
    rw [hentry, if_pos rfl]
  have htarget : written.entry? path ≠ some .directory := by
    rw [hentry, if_neg (scratchPath_ne path).symm]
    exact h.target
  have hrename := Disk.run_rename hscratch htarget
  have hsync : Disk.Step.run written (.sync (scratchPath path)) = .ok written := rfl
  refine ⟨(written.remove (scratchPath path)).put path (.file content), ?_, ?_⟩
  · have hsteps : d.runSteps (writeSteps path records) =
        (.ok (), (written.remove (scratchPath path)).put path (.file content)) := by
      unfold writeSteps
      rw [hcontent, Disk.runSteps_cons_of_ok hcreate, Disk.runSteps_cons_of_ok happend,
        Disk.runSteps_cons_of_ok hsync, Disk.runSteps_cons_of_ok hrename]
      rfl
    unfold write
    simp only [hsteps]
    rfl
  · intro p
    unfold replaced
    rw [Disk.entry?_put, Disk.entry?_remove, hentry]
    split
    · rfl
    · split <;> rfl

theorem Writable.of_replaced {path : String} {content : List UInt8} {d d' : Disk}
    (h : Writable path d) (hd : ∀ p, d'.entry? p = replaced path content d p) :
    Writable path d' := by
  apply h.of_entry?_eq
  · intro p hpath hscratch
    simp [hd, replaced, hpath, hscratch]
  · simp [hd, replaced, scratchPath_ne]
  · simp [hd, replaced]

theorem records_of_replaced {path : String} {records : List Record} {d d' : Disk}
    (hd : ∀ p, d'.entry? p = replaced path (Record.writeFile records).toUTF8.toList d p) :
    (⟨some path⟩ : FileBackup).records d' = .ok records := by
  have hread : d'.read path = .ok (Record.writeFile records).toUTF8.toList :=
    Disk.read_of_file (by rw [hd, replaced, if_pos rfl])
  unfold FileBackup.records
  simp only [hread, Record.readFile?_writeFile]

theorem records_put_writeFile (records : List Record) :
    (⟨some "b"⟩ : FileBackup).records
      (Disk.empty.put "b" (.file (Record.writeFile records).toUTF8.toList)) = .ok records :=
  records_of_replaced (d := Disk.empty) fun p => by
    by_cases hp : p = "b" <;> simp [replaced, hp]

/-- On a disk that takes writes, a write succeeds and its records are the ones kept afterwards. -/
theorem write_ok {path : String} {d : Disk} (h : Writable path d) (records : List Record) :
    ∃ d', write ⟨some path⟩ records d = (.ok (), d') ∧ Writable path d' ∧
      (⟨some path⟩ : FileBackup).records d' = .ok records := by
  obtain ⟨d', hwrite, hd⟩ := write_eq h records
  exact ⟨d', hwrite, h.of_replaced hd, records_of_replaced hd⟩

/-! ## Writes that fail -/

/-- The steps before the new file is moved to its place. -/
def firstSteps (path : String) (records : List Record) : List Disk.Step :=
  [.create (scratchPath path), .append (scratchPath path) (Record.writeFile records).toUTF8.toList,
    .sync (scratchPath path)]

theorem writeSteps_eq (path : String) (records : List Record) :
    writeSteps path records = firstSteps path records ++ [.rename (scratchPath path) path] := rfl

/-- The first steps leave everything alone but the file beside the one that is replaced. -/
theorem spares_firstSteps {path p : String} (hp : p ≠ scratchPath path) (records : List Record) :
    ∀ step ∈ firstSteps path records, step.Spares p := by
  simp [firstSteps, Disk.Step.Spares, hp.symm]

/-- A replacement that stops before its last step leaves the file as it is. -/
theorem entry?_runSteps_take_writeSteps (path : String) (records : List Record) (d : Disk) {n : Nat}
    (h : n < (writeSteps path records).length) :
    Disk.entry? (d.runSteps ((writeSteps path records).take n)).2 path = d.entry? path := by
  apply Disk.entry?_runSteps_of_spares
  intro step hstep
  apply spares_firstSteps (scratchPath_ne path).symm records
  exact List.take_subset_take_left _ (Nat.le_of_lt_succ h) hstep

theorem entry?_ne_directory_of_records {path : String} {d : Disk} {records : List Record}
    (h : (⟨some path⟩ : FileBackup).records d = .ok records) : d.entry? path ≠ some .directory := by
  intro hentry
  simp [FileBackup.records, Disk.read, hentry, fail] at h

/-- If there is no directory in place of the file, a disk that takes no writes is left as it is. -/
theorem write_of_not_writable {path : String} {d : Disk} (htarget : d.entry? path ≠ some .directory)
    (h : ¬ Writable path d) (records : List Record) :
    ∃ e, write ⟨some path⟩ records d = (.error e, d) := by
  have hcreate : ∃ fault, Disk.Step.run d (.create (scratchPath path)) = .error fault := by
    unfold Disk.Step.run
    cases hfolder : d.folderFault? (scratchPath path) with
    | some fault => exact ⟨fault, by simp only [hfolder]⟩
    | none =>
      have hscratch : d.entry? (scratchPath path) = some .directory := by
        by_contra hscratch
        exact h ⟨hfolder, hscratch, htarget⟩
      exact ⟨.isDirectory, by simp only [hfolder, hscratch]⟩
  obtain ⟨fault, hcreate⟩ := hcreate
  have hsteps : d.runSteps (writeSteps path records) = (.error fault, d) := by
    rw [writeSteps, Disk.runSteps, hcreate]
  unfold write
  simp only [hsteps]
  exact ⟨_, rfl⟩

/-- If there is no directory in place of the file, a write can only fail before it has changed anything. -/
theorem write_error {path : String} {d d' : Disk} {records : List Record} {e : Error}
    (htarget : d.entry? path ≠ some .directory)
    (h : write ⟨some path⟩ records d = (.error e, d')) : d' = d := by
  by_cases hwritable : Writable path d
  · obtain ⟨d₁, hwrite, -⟩ := write_ok hwritable records
    rw [hwrite] at h
    cases h
  · obtain ⟨e', hwrite⟩ := write_of_not_writable htarget hwritable records
    rw [hwrite] at h
    exact (Prod.ext_iff.mp h).2.symm

/-- Storing a batch changes nothing if it fails. -/
theorem add_error {b : FileBackup} {batch : List Metric} {d d' : Disk} {e : Error}
    (h : b.add batch d = (.error e, d')) : d' = d := by
  unfold FileBackup.add at h
  split at h
  · cases h
    rfl
  · rename_i records hrecords
    rw [within_eq_ok_iff] at hrecords
    obtain ⟨path⟩ := b
    cases path with
    | none => cases h
    | some path =>
      have htarget := entry?_ne_directory_of_records hrecords
      obtain ⟨⟨result, d₁⟩, hwrite⟩ : ∃ written, write ⟨some path⟩
          (records.filter (fun r => !isReplaced batch r) ++ batch.map .ofMetric) d = written :=
        ⟨_, rfl⟩
      simp only [hwrite] at h
      cases result with
      | ok _ => cases h
      | error e₁ =>
        cases h
        exact write_error htarget hwrite

/-! ## What is kept -/

/-- The file keeps a snapshot: its records are complete and the last one for each key counts. -/
structure Keeps (path : String) (d : Disk) (s : Snapshot) : Prop where
  writable : Writable path d
  records : ∃ entries : List Snapshot.Entry,
    (⟨some path⟩ : FileBackup).records d = .ok (entries.map .ofEntry) ∧
      (∀ e ∈ entries, e.Complete) ∧ Snapshot.ofEntries entries = s

/-- The kept snapshot is the one that is read. -/
theorem Keeps.snapshot {path : String} {d : Disk} {s : Snapshot} (h : Keeps path d s) :
    (⟨some path⟩ : FileBackup).snapshot d = .ok s :=
  snapshot_eq_ok_iff.mpr h.records

/-- Every entry of a kept snapshot is complete. -/
theorem Keeps.complete {path : String} {d : Disk} {s : Snapshot} (h : Keeps path d s)
    {e : Snapshot.Entry} (he : e ∈ s.toEntries) : e.Complete :=
  complete_of_mem_snapshot h.snapshot he

theorem Keeps.populated {path : String} {d : Disk} {s : Snapshot} (h : Keeps path d s) :
    s.Populated :=
  populated_of_snapshot h.snapshot

/-- The entry is about a metric of the batch. -/
theorem isReplaced_ofEntry_iff {batch : List Metric} {e : Snapshot.Entry} :
    isReplaced batch (.ofEntry e) = true ↔
      ∃ m ∈ batch, e.type = m.entry.type ∧ e.name = m.entry.name := by
  unfold isReplaced
  rw [List.any_eq_true]
  refine exists_congr fun m => and_congr_right fun _ => ?_
  unfold Record.isFor Record.ofEntry
  rw [Bool.and_eq_true, beq_iff_eq, beq_iff_eq, Option.some_inj, Option.some_inj]
  rfl

/-- Dropping the replaced entries first makes no difference to what a batch leaves. -/
theorem ofEntries_filter_append (entries : List Snapshot.Entry) (batch : List Metric) :
    Snapshot.ofEntries
        (entries.filter (fun e => !isReplaced batch (.ofEntry e)) ++ batch.map Metric.entry) =
      Snapshot.ofEntries (entries ++ batch.map Metric.entry) := by
  refine Snapshot.ofEntries_congr fun type name => ?_
  rw [Snapshot.last?_append, Snapshot.last?_append]
  cases hbatch : Snapshot.last? (batch.map Metric.entry) type name with
  | some value => rfl
  | none =>
    have hnone := Snapshot.last?_eq_none_iff.mp hbatch
    rw [Option.none_or, Option.none_or]
    refine Snapshot.last?_filter fun e _ hfor => ?_
    obtain ⟨rfl, rfl⟩ := Snapshot.Entry.isFor_iff.mp hfor
    rw [Bool.not_eq_true', ← Bool.not_eq_true, isReplaced_ofEntry_iff]
    rintro ⟨m, hm, hkey⟩
    exact hnone m.entry (List.mem_map_of_mem hm) hkey

/-- The records of entries and a batch are those of the entries that are left and the batch. -/
theorem filter_append_map_ofEntry (entries : List Snapshot.Entry) (batch : List Metric) :
    (entries.map Record.ofEntry).filter (fun r => !isReplaced batch r) ++
        batch.map Record.ofMetric =
      (entries.filter (fun e => !isReplaced batch (.ofEntry e)) ++ batch.map Metric.entry).map
        Record.ofEntry := by
  rw [List.map_append, List.map_map, List.filter_map]
  rfl

/-- Storing a batch succeeds and puts its entries into the kept snapshot. -/
theorem Keeps.add {path : String} {d : Disk} {s : Snapshot} (h : Keeps path d s)
    {batch : List Metric} (hbatch : ∀ m ∈ batch, m.entry.Complete) :
    ∃ d', (⟨some path⟩ : FileBackup).add batch d = (.ok (), d') ∧
      Keeps path d' ((batch.map Metric.entry).foldl Snapshot.put s) := by
  obtain ⟨entries, hrecords, hcomplete, rfl⟩ := h.records
  obtain ⟨d', hwrite, hwritable, hread⟩ := write_ok h.writable
    ((entries.map Record.ofEntry).filter (fun r => !isReplaced batch r) ++
      batch.map Record.ofMetric)
  refine ⟨d', ?_, hwritable, ?_⟩
  · unfold FileBackup.add
    rw [hrecords]
    simp only [within, Except.mapError, hwrite]
  · rw [filter_append_map_ofEntry] at hread
    refine ⟨_, hread, ?_, ?_⟩
    · intro e he
      rcases List.mem_append.mp he with he | he
      · exact hcomplete e (List.mem_filter.mp he).1
      · obtain ⟨m, hm, rfl⟩ := List.mem_map.mp he
        exact hbatch m hm
    · rw [ofEntries_filter_append]
      unfold Snapshot.ofEntries
      rw [List.foldl_append]

theorem restore_eq_ok_iff {b : FileBackup} {s : Snapshot} {d d' : Disk} :
    b.restore s d = (.ok (), d') ↔ b.write (s.toEntries.map .ofEntry) d = (.ok (), d') := by
  unfold FileBackup.restore
  cases hwrite : b.write (s.toEntries.map .ofEntry) d with
  | mk result d₁ => simp [within_eq_ok_iff]

/-- Restoring succeeds and replaces the kept snapshot, by one without bare types. -/
theorem Keeps.restore {path : String} {d : Disk} (h : Writable path d) {s : Snapshot}
    (hcomplete : ∀ e ∈ s.toEntries, e.Complete) :
    ∃ d', (⟨some path⟩ : FileBackup).restore s d = (.ok (), d') ∧
      Keeps path d' s.withoutBareTypes := by
  obtain ⟨d', hwrite, hwritable, hread⟩ := write_ok h (s.toEntries.map .ofEntry)
  exact ⟨d', restore_eq_ok_iff.mpr hwrite, hwritable, s.toEntries, hread, hcomplete,
    Snapshot.ofEntries_toEntries s⟩

theorem Keeps.restore_of_populated {path : String} {d : Disk} (h : Writable path d) {s : Snapshot}
    (hpopulated : s.Populated) (hcomplete : ∀ e ∈ s.toEntries, e.Complete) :
    ∃ d', (⟨some path⟩ : FileBackup).restore s d = (.ok (), d') ∧ Keeps path d' s := by
  have hrestore := Keeps.restore h hcomplete
  rwa [Snapshot.withoutBareTypes_of_populated hpopulated] at hrestore

end FileBackup

end Backup

end Telemetry

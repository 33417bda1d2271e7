-- SUMMARY: Calls that change a backup file: the records each leaves, and when both ways of reading keep agreeing.
import Mathlib
import Telemetry.Proofs.Backup.Retention

/-!
# Changes of the file

Every call that changes the file makes new records of the old ones and replaces the file by them. A look-up
takes the first record for a key and a snapshot the last one, so both agree as long as every key has one
record. Restoring complete entries leaves such records, and so does storing a batch without repeated keys.
-/

namespace Telemetry.Backup

/-! ## Keyed records -/

/-- Type and name of an entry. -/
def entryKey (e : Snapshot.Entry) : String × String :=
  (e.type, e.name)

/-- The records are complete, and each has a key of its own. -/
def Keyed (records : List Record) : Prop :=
  ∃ entries : List Snapshot.Entry, records = entries.map .ofEntry ∧
    (∀ e ∈ entries, e.Complete) ∧ (entries.map entryKey).Nodup

theorem keyed_nil : Keyed [] :=
  ⟨[], rfl, List.forall_mem_nil _, List.nodup_nil⟩

theorem Record.ofEntry_injective : Function.Injective ofEntry := by
  rintro ⟨type, name, value⟩ ⟨type', name', value'⟩ h
  cases h
  rfl

theorem keyed_map_ofEntry_iff {entries : List Snapshot.Entry} :
    Keyed (entries.map .ofEntry) ↔
      (∀ e ∈ entries, e.Complete) ∧ (entries.map entryKey).Nodup := by
  constructor
  · rintro ⟨entries', hsame, h⟩
    rwa [List.map_injective_iff.mpr Record.ofEntry_injective hsame]
  · rintro ⟨hcomplete, hnodup⟩
    exact ⟨entries, rfl, hcomplete, hnodup⟩

theorem Record.isFor_ofEntry (e : Snapshot.Entry) (type name : String) :
    (ofEntry e).isFor type name = e.isFor type name := rfl

theorem isFor_iff_entryKey {e : Snapshot.Entry} {type name : String} :
    e.isFor type name = true ↔ entryKey e = (type, name) := by
  rw [Snapshot.Entry.isFor_iff, entryKey, Prod.mk.injEq, eq_comm, @eq_comm _ name]

/-- Keys are unique exactly if no two entries are for the same. -/
theorem nodup_entryKey_iff {entries : List Snapshot.Entry} :
    (entries.map entryKey).Nodup ↔
      ∀ type name, (entries.map Record.ofEntry).countP (·.isFor type name) ≤ 1 := by
  have hcount : ∀ type name, (entries.map Record.ofEntry).countP (·.isFor type name) =
      (entries.map entryKey).count (type, name) := by
    intro type name
    rw [List.countP_map, List.count, List.countP_map]
    refine List.countP_congr fun e _ => ?_
    rw [Function.comp_apply, Function.comp_apply, Record.isFor_ofEntry, isFor_iff_entryKey,
      beq_iff_eq]
  simp only [hcount, List.nodup_iff_count_le_one, Prod.forall]

/-- Where keys are unique, the first entry for a key has the value of the last one. -/
theorem find?_isFor_eq_of_nodup {entries : List Snapshot.Entry}
    (h : (entries.map entryKey).Nodup) (type name : String) :
    entries.find? (·.isFor type name) =
      (Snapshot.last? entries type name).map (⟨type, name, ·⟩) := by
  cases hlast : Snapshot.last? entries type name with
  | some value =>
    have hmem := Snapshot.mem_of_last?_eq_some hlast
    exact (find?_eq_some_iff_of_nodup h fun _ => isFor_iff_entryKey).mpr ⟨hmem, rfl⟩
  | none =>
    refine List.find?_eq_none.mpr fun e he hfor => ?_
    exact Snapshot.last?_eq_none_iff.mp hlast e he (Snapshot.Entry.isFor_iff.mp hfor)

namespace FileBackup

/-! ## Both ways of reading -/

/-- No key has two records, and a look-up under a key finds the metric of the text that the snapshot has
    there, or nothing if it has none. Where the stored text is no value of its type, the two agree as long as
    the snapshot shows the text and the look-up fails to read this very text. -/
structure Consistent (b : FileBackup) (d : Disk) : Prop where
  single : ∃ records, b.records d = .ok records ∧
    ∀ type name, records.countP (·.isFor type name) ≤ 1
  agree : ∃ s, b.snapshot d = .ok s ∧ ∀ type name, b.get type name d =
    match s.value? type name with
    | some text => (Record.ofEntry ⟨type, name, text⟩).toMetric
    | none => fail (.notFound type name)

theorem get_of_records {b : FileBackup} {d : Disk} {records : List Record}
    (h : b.records d = .ok records) (type name : String) :
    b.get type name d = match records.find? (·.isFor type name) with
      | some r => r.toMetric
      | none => fail (.notFound type name) := by
  cases hfind : records.find? (·.isFor type name) with
  | some r => simp [FileBackup.get, h, hfind]
  | none => simp [FileBackup.get, h, hfind]

/-- A file is consistent exactly if its records are keyed. -/
theorem consistent_iff_keyed {b : FileBackup} {d : Disk} {records : List Record}
    (h : b.records d = .ok records) : Consistent b d ↔ Keyed records := by
  constructor
  · rintro ⟨⟨records', hrecords, hsingle⟩, s, hsnapshot, -⟩
    obtain ⟨entries, hentries, hcomplete, -⟩ := snapshot_eq_ok_iff.mp hsnapshot
    rw [h] at hrecords hentries
    cases hrecords
    cases hentries
    exact ⟨entries, rfl, hcomplete, nodup_entryKey_iff.mpr hsingle⟩
  · rintro ⟨entries, rfl, hcomplete, hnodup⟩
    refine ⟨⟨_, h, nodup_entryKey_iff.mp hnodup⟩, .ofEntries entries,
      snapshot_eq_ok_iff.mpr ⟨entries, h, hcomplete, rfl⟩, fun type name => ?_⟩
    have hfind : (entries.map Record.ofEntry).find? (·.isFor type name) =
        (entries.find? (·.isFor type name)).map .ofEntry := List.find?_map
    rw [get_of_records h, hfind, find?_isFor_eq_of_nodup hnodup, Snapshot.value?_ofEntries]
    cases Snapshot.last? entries type name <;> rfl

/-! ## Changes -/

/-- A call that changes the file. -/
inductive Change where
  | add (batch : List Metric)
  | restore (s : Snapshot)

/-- The result of a call, and the disk that it leaves. -/
def Change.call (b : FileBackup) (d : Disk) : Change → Outcome Unit × Disk
  | add batch => b.add batch d
  | restore s => b.restore s d

/-- The records that a call makes of the old ones. -/
def Change.rewrite (old : List Record) : Change → List Record
  | add batch => old.filter (fun r => !isReplaced batch r) ++ batch.map .ofMetric
  | restore s => s.toEntries.map .ofEntry

/-- No key is twice in a batch, and what is written has all its parts. -/
def Change.Unambiguous : Change → Prop
  | add batch => (batch.map fun m => (m.kind, m.name)).Nodup ∧ ∀ m ∈ batch, m.name ≠ ""
  | restore s => ∀ e ∈ s.toEntries, e.Complete

/-- The disk after calls, whatever came of each. -/
def run (b : FileBackup) (changes : List Change) (d : Disk) : Disk :=
  changes.foldl (fun d change => (change.call b d).2) d

theorem nodup_entryKey_toEntries (s : Snapshot) : (s.toEntries.map entryKey).Nodup := by
  refine (List.nodup_map_iff_inj_on (Snapshot.nodup_toEntries s)).mpr ?_
  rintro ⟨type, name, value⟩ he ⟨type', name', value'⟩ he' hkey
  cases hkey
  have hvalue := Snapshot.mem_toEntries_iff.mp he
  rw [Snapshot.mem_toEntries_iff.mp he'] at hvalue
  cases hvalue
  rfl

theorem complete_entry_iff {m : Metric} : m.entry.Complete ↔ m.name ≠ "" :=
  ⟨fun h => h.2.1, fun h => ⟨Kind.name_ne_empty m.kind, h, m.value.text_ne_empty⟩⟩

theorem nodup_entryKey_entry_iff {batch : List Metric} :
    ((batch.map Metric.entry).map entryKey).Nodup ↔
      (batch.map fun m => (m.kind, m.name)).Nodup := by
  have hkeys : (batch.map Metric.entry).map entryKey =
      (batch.map fun m => (m.kind, m.name)).map fun key => (key.1.name, key.2) := by
    rw [List.map_map, List.map_map]
    rfl
  rw [hkeys, List.nodup_map_iff]
  rintro ⟨kind, name⟩ ⟨kind', name'⟩ h
  obtain ⟨hkind, hname⟩ := Prod.mk.inj h
  exact Prod.ext (Kind.name_injective hkind) hname

/-- A call makes keyed records of keyed ones exactly if it is unambiguous. -/
theorem Change.keyed_rewrite_iff {old : List Record} (h : Keyed old) (change : Change) :
    Keyed (change.rewrite old) ↔ change.Unambiguous := by
  cases change with
  | restore s =>
    rw [rewrite, keyed_map_ofEntry_iff]
    exact and_iff_left (nodup_entryKey_toEntries s)
  | add batch =>
    obtain ⟨entries, rfl, hcomplete, hnodup⟩ := h
    generalize hkept : entries.filter (fun e => !isReplaced batch (.ofEntry e)) = kept
    have hsub : kept.Sublist entries := hkept ▸ List.filter_sublist
    have hnew : ∀ e ∈ kept, ∀ m ∈ batch, entryKey e ≠ entryKey m.entry := by
      intro e he m hm hkey
      rw [← hkept, List.mem_filter, Bool.not_eq_true', ← Bool.not_eq_true,
        isReplaced_ofEntry_iff] at he
      exact he.2 ⟨m, hm, Prod.mk.inj hkey⟩
    rw [rewrite, filter_append_map_ofEntry, hkept, keyed_map_ofEntry_iff, List.map_append, List.nodup_append,
      nodup_entryKey_entry_iff]
    simp only [List.forall_mem_append, List.forall_mem_map, complete_entry_iff]
    constructor
    · rintro ⟨⟨-, hnames⟩, -, hbatch, -⟩
      exact ⟨hbatch, hnames⟩
    · rintro ⟨hbatch, hnames⟩
      refine ⟨⟨fun e he => hcomplete e (hsub.subset he), hnames⟩,
        hnodup.sublist (hsub.map entryKey), hbatch, hnew⟩

/-! ## Calls on a disk -/

/-- To store a batch the old records are read first, to restore nothing is read. -/
def Change.Reads (b : FileBackup) (d : Disk) (old : List Record) : Change → Prop
  | add _ => b.records d = .ok old
  | restore _ => True

theorem Change.reads_of_records {b : FileBackup} {d : Disk} {old : List Record}
    (h : b.records d = .ok old) (change : Change) : change.Reads b d old := by
  cases change with
  | add batch => exact h
  | restore s => trivial

/-- A call that has read writes the records that it makes. -/
theorem Change.call_of_reads {b : FileBackup} {d : Disk} {old : List Record} {change : Change}
    (h : change.Reads b d old) : ∃ context, change.call b d =
      (within context (b.write (change.rewrite old) d).1, (b.write (change.rewrite old) d).2) := by
  cases change with
  | add batch =>
    have hold : b.records d = .ok old := h
    simp only [call, FileBackup.add, hold, within_ok]
    exact ⟨_, rfl⟩
  | restore s => exact ⟨_, rfl⟩

/-- A call on a disk that takes writes succeeds and leaves such a disk with the records that it makes. -/
theorem Change.call_ok {path : String} {d : Disk} {old : List Record} (h : Writable path d)
    (hold : (⟨some path⟩ : FileBackup).records d = .ok old) (change : Change) :
    ∃ d', change.call ⟨some path⟩ d = (.ok (), d') ∧ Writable path d' ∧
      (⟨some path⟩ : FileBackup).records d' = .ok (change.rewrite old) := by
  obtain ⟨context, hcall⟩ := call_of_reads (change.reads_of_records hold)
  obtain ⟨d', hwrite, h'⟩ := write_ok h (change.rewrite old)
  refine ⟨d', ?_, h'⟩
  simp [hcall, hwrite]

/-- A disk that takes no writes is left as it is. -/
theorem Change.call_of_not_writable {path : String} {d : Disk} {old : List Record}
    (h : ¬ Writable path d) (hold : (⟨some path⟩ : FileBackup).records d = .ok old)
    (change : Change) : ∃ e, change.call ⟨some path⟩ d = (.error e, d) := by
  have htarget := entry?_ne_directory_of_records hold
  obtain ⟨context, hcall⟩ := call_of_reads (change.reads_of_records hold)
  obtain ⟨e, hwrite⟩ := write_of_not_writable htarget h (change.rewrite old)
  exact ⟨e.within context, by simp [hcall, hwrite]⟩

theorem run_ok {path : String} {d : Disk} {old : List Record} (h : Writable path d)
    (hold : (⟨some path⟩ : FileBackup).records d = .ok old) (changes : List Change) :
    Writable path (run ⟨some path⟩ changes d) ∧
      (⟨some path⟩ : FileBackup).records (run ⟨some path⟩ changes d) =
        .ok (changes.foldl Change.rewrite old) := by
  induction changes generalizing d old with
  | nil => exact ⟨h, hold⟩
  | cons change changes ih =>
    obtain ⟨d', hcall, hwritable, hrecords⟩ := change.call_ok h hold
    have hrun : run ⟨some path⟩ (change :: changes) d = run ⟨some path⟩ changes d' := by
      unfold run
      rw [List.foldl_cons, hcall]
    rw [hrun]
    exact ih hwritable hrecords

theorem run_of_not_writable {path : String} {d : Disk} {old : List Record}
    (h : ¬ Writable path d) (hold : (⟨some path⟩ : FileBackup).records d = .ok old)
    (changes : List Change) : run ⟨some path⟩ changes d = d := by
  induction changes with
  | nil => rfl
  | cons change changes ih =>
    obtain ⟨e, hcall⟩ := change.call_of_not_writable h hold
    unfold run at ih ⊢
    rw [List.foldl_cons, hcall]
    exact ih

/-- Records stay keyed throughout exactly if all calls are unambiguous. -/
theorem keyed_foldl_rewrite_iff {old : List Record} (h : Keyed old) (changes : List Change) :
    (∀ done, done <+: changes → Keyed (done.foldl Change.rewrite old)) ↔
      ∀ change ∈ changes, change.Unambiguous := by
  induction changes generalizing old with
  | nil =>
    simp only [List.prefix_nil, List.not_mem_nil, forall_eq]
    exact ⟨fun _ _ hmem => hmem.elim, fun _ => h⟩
  | cons change changes ih =>
    rw [List.forall_mem_cons, ← change.keyed_rewrite_iff h]
    constructor
    · intro hall
      have hfirst := hall [change] ((List.prefix_cons_inj change).mpr List.nil_prefix)
      refine ⟨hfirst, (ih hfirst).mp fun done hdone => ?_⟩
      exact hall (change :: done) ((List.prefix_cons_inj change).mpr hdone)
    · rintro ⟨hfirst, hrest⟩ done hdone
      rcases List.prefix_cons_iff.mp hdone with rfl | ⟨rest, rfl, hrest'⟩
      · exact h
      · exact (ih hfirst).mpr hrest rest hrest'

/-- From a file without records on, every call succeeds if the disk takes writes, and no call changes
    anything if it does not. On a disk that takes writes every key has one record after each call and both
    ways of reading agree exactly if all calls are unambiguous: no batch has a key twice or a metric without
    a name, and all restored entries are complete. -/
theorem calls_keep_consistent_iff {path : String} {d : Disk}
    (hempty : (⟨some path⟩ : FileBackup).records d = .ok []) (changes : List Change) :
    let b : FileBackup := ⟨some path⟩
    (Writable path d → ∀ done (change : Change), (change.call b (run b done d)).1 = .ok ()) ∧
      ((∀ done, done <+: changes → Consistent b (run b done d)) ↔
        (Writable path d → ∀ change ∈ changes, change.Unambiguous)) := by
  intro b
  constructor
  · intro hwritable done change
    obtain ⟨hwritable', hrecords⟩ := run_ok hwritable hempty done
    obtain ⟨d', hcall, -⟩ := change.call_ok hwritable' hrecords
    exact congrArg Prod.fst hcall
  · by_cases hwritable : Writable path d
    · have hkeyed : ∀ done, Consistent b (run b done d) ↔ Keyed (done.foldl Change.rewrite []) :=
        fun done => consistent_iff_keyed (run_ok hwritable hempty done).2
      simp only [hkeyed, hwritable, true_implies]
      exact keyed_foldl_rewrite_iff keyed_nil changes
    · have hsame : ∀ done, run b done d = d := run_of_not_writable hwritable hempty
      have hconsistent : Consistent b d := (consistent_iff_keyed hempty).mpr keyed_nil
      simp only [hsame, hwritable, false_implies, iff_true]
      exact fun done _ => hconsistent

/-- A counter is replaced, in one batch with a gauge of the same name, and then all is restored. -/
theorem calls_keep_consistent_through_restore :
    let b : FileBackup := ⟨some "b"⟩
    let d := Disk.empty.put "b" (.file [])
    let changes : List Change :=
      [.add [⟨"a", .counter 1⟩], .add [⟨"a", .counter 2⟩, ⟨"a", .gauge (.ofNat 1)⟩],
        .restore (.ofEntries [⟨"counter", "a", "3"⟩])]
    b.records d = .ok [] ∧ Writable "b" d ∧
      ∀ done, done <+: changes → Consistent b (run b done d) := by
  intro b d changes
  have hempty : b.records d = .ok [] := by
    decide +kernel
  have hentries : (Snapshot.ofEntries [⟨"counter", "a", "3"⟩]).toEntries =
      [⟨"counter", "a", "3"⟩] := by
    decide +kernel
  refine ⟨hempty, writable_put_file, (calls_keep_consistent_iff hempty changes).2.mpr fun _ => ?_⟩
  simp [changes, Change.Unambiguous, hentries, Snapshot.Entry.Complete, Metric.kind, Value.kind]

/-- Two counters of one name in one batch are both kept, and each way of reading takes another. -/
theorem repeated_key_is_kept_twice :
    let b : FileBackup := ⟨some "b"⟩
    let d := Disk.empty.put "b" (.file [])
    let after := b.add [⟨"a", .counter 1⟩, ⟨"a", .counter 2⟩] d
    b.records d = .ok [] ∧ after.1 = .ok () ∧
      (b.records after.2).map (·.countP (·.isFor "counter" "a")) = .ok 2 ∧
      b.get "counter" "a" after.2 = .ok ⟨"a", .counter 1⟩ ∧
      (b.snapshot after.2).map (·.value? "counter" "a") = .ok (some "2") := by
  intro b d after
  have hempty : b.records d = .ok [] := by
    decide +kernel
  obtain ⟨d', hcall, -, hrecords⟩ :=
    (Change.add [⟨"a", .counter 1⟩, ⟨"a", .counter 2⟩]).call_ok writable_put_file hempty
  have hafter : after = (.ok (), d') := hcall
  have hkept : b.records d' = .ok
      ([⟨"counter", "a", "1"⟩, ⟨"counter", "a", "2"⟩].map Record.ofEntry) := hrecords
  have hcomplete : ∀ e ∈ ([⟨"counter", "a", "1"⟩, ⟨"counter", "a", "2"⟩] : List Snapshot.Entry),
      e.Complete := by
    simp [Snapshot.Entry.Complete]
  have hsnapshot := snapshot_eq_ok_iff.mpr ⟨_, hkept, hcomplete, rfl⟩
  rw [hafter, hkept, get_of_records hkept, hsnapshot]
  refine ⟨hempty, rfl, ?_, ?_, ?_⟩
  · decide +kernel
  · decide +kernel
  · decide +kernel

end FileBackup

end Telemetry.Backup

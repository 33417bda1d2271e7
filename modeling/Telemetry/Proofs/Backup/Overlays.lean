-- SUMMARY: Storing a batch in a backup file: the records that stay, and the snapshot with the batch laid over it.
import Mathlib
import Telemetry.Proofs.Backup.Changes

/-!
# Batches laid over a file

A file that somebody edited may list records in any order, several for one key, and records without a key.
A batch takes the place of all records of its own keys and leaves the others where they are. As long as
all parts are there, what is read afterwards is the snapshot from before with the batch laid over it,
however often a key occurs in the file or in the batch.
-/

namespace Telemetry.Backup

namespace Record

/-- The record has no key, or one that no metric of the batch has. -/
def Outside (batch : List Metric) (r : Record) : Prop :=
  r.type = none ∨ r.name = none ∨
    ∀ m ∈ batch, ¬ (r.type = some m.kind.name ∧ r.name = some m.name)

instance (batch : List Metric) (r : Record) : Decidable (r.Outside batch) :=
  inferInstanceAs (Decidable (_ ∨ _ ∨ _))

/-- No part of the record is missing or empty. -/
def Filled (r : Record) : Prop :=
  ∃ e : Snapshot.Entry, e.Complete ∧ r = .ofEntry e

theorem exists_entries_of_filled {records : List Record} (h : ∀ r ∈ records, r.Filled) :
    ∃ entries : List Snapshot.Entry, records = entries.map .ofEntry ∧ ∀ e ∈ entries, e.Complete := by
  induction records with
  | nil => exact ⟨[], rfl, List.forall_mem_nil _⟩
  | cons r records ih =>
    obtain ⟨⟨e, he, rfl⟩, hrest⟩ := List.forall_mem_cons.mp h
    obtain ⟨entries, rfl, hentries⟩ := ih hrest
    exact ⟨e :: entries, rfl, List.forall_mem_cons.mpr ⟨he, hentries⟩⟩

end Record

namespace FileBackup

/-- A batch leaves the records outside of it. -/
theorem isReplaced_eq_false_iff {batch : List Metric} {r : Record} :
    isReplaced batch r = false ↔ r.Outside batch := by
  unfold isReplaced
  rw [List.any_eq_false]
  simp only [Record.isFor, Bool.and_eq_true, beq_iff_eq]
  constructor
  · intro h
    exact .inr (.inr h)
  · rintro (htype | hname | h) m hm ⟨htype', hname'⟩
    · rw [htype] at htype'
      cases htype'
    · rw [hname] at hname'
      cases hname'
    · exact h m hm ⟨htype', hname'⟩

theorem filter_not_isReplaced (batch : List Metric) (records : List Record) :
    records.filter (fun r => !isReplaced batch r) =
      records.filter fun r => decide (r.Outside batch) := by
  refine List.filter_congr fun r _ => ?_
  rw [Bool.eq_iff_iff, Bool.not_eq_true', isReplaced_eq_false_iff, decide_eq_true_iff]

/-- Storing a batch in a file that is read and that takes writes succeeds and gives back the instances as
    they came. The records without a type or a name and those of other keys stay in their order, and the
    batch comes behind them. If all records were filled and all metrics of the batch have names, then the
    snapshot read afterwards has for each key of the batch the value of the last metric with this key, and
    for all other keys what it had before. -/
theorem add_overlays_batch {path : String} {d : Disk} {records : List Record}
    (hwritable : Writable path d) (hrecords : (⟨some path⟩ : FileBackup).records d = .ok records)
    (t : Instances) (handles : List Handle) :
    let b : FileBackup := ⟨some path⟩
    let batch := t.metrics handles
    let after := t.storeBy b.add handles d
    after.1 = .ok handles ∧
      b.records after.2 = .ok
        (records.filter (fun r => decide (r.Outside batch)) ++ batch.map .ofMetric) ∧
      ((∀ r ∈ records, r.Filled) → (∀ m ∈ batch, m.name ≠ "") →
        ∃ s s', b.snapshot d = .ok s ∧ b.snapshot after.2 = .ok s' ∧ s'.Populated ∧
          ∀ type name, s'.value? type name =
            (Snapshot.last? (batch.map Metric.entry) type name).or (s.value? type name)) := by
  intro b batch after
  obtain ⟨d', hadd, -, hread⟩ := (Change.add batch).call_ok hwritable hrecords
  have hafter : after = (.ok handles, d') := Instances.storeBy_of_ok hadd
  rw [hafter]
  refine ⟨rfl, ?_, fun hfilled hnames => ?_⟩
  · rw [← filter_not_isReplaced]
    exact hread
  · obtain ⟨entries, rfl, hcomplete⟩ := Record.exists_entries_of_filled hfilled
    have hkeeps : Keeps path d (.ofEntries entries) :=
      ⟨hwritable, entries, hrecords, hcomplete, rfl⟩
    obtain ⟨d₁, hadd₁, hkeeps₁⟩ := hkeeps.add fun m hm => complete_entry_iff.mpr (hnames m hm)
    obtain rfl : d' = d₁ := congrArg Prod.snd (hadd.symm.trans hadd₁)
    exact ⟨_, _, hkeeps.snapshot, hkeeps₁.snapshot, hkeeps₁.populated,
      Snapshot.value?_foldl_put _ _⟩

/-- The file has two records of the counter and the batch has it twice. A record without a name stays. -/
theorem add_overlays_batch_repeatedKeys :
    let b : FileBackup := ⟨some "b"⟩
    let entries : List Snapshot.Entry :=
      [⟨"counter", "a", "1"⟩, ⟨"gauge", "a", "2"⟩, ⟨"counter", "a", "3"⟩]
    let filled := entries.map Record.ofEntry
    let nameless : Record := ⟨some "counter", none, some "4"⟩
    let d := Disk.empty.put "b" (.file (Record.writeFile filled).toUTF8.toList)
    let d' := Disk.empty.put "b" (.file (Record.writeFile (nameless :: filled)).toUTF8.toList)
    let t : Instances := ⟨#[⟨"a", .counter 5⟩, ⟨"a", .counter 6⟩]⟩
    let after := t.storeBy b.add [0, 1] d
    let after' := t.storeBy b.add [0, 1] d'
    let left : List Record := [⟨some "gauge", some "a", some "2"⟩,
      ⟨some "counter", some "a", some "5"⟩, ⟨some "counter", some "a", some "6"⟩]
    (Writable "b" d ∧ b.records d = .ok filled) ∧
      after.1 = .ok [0, 1] ∧ b.records after.2 = .ok left ∧
      (∃ s, b.snapshot after.2 = .ok s ∧
        s.value? "counter" "a" = some "6" ∧ s.value? "gauge" "a" = some "2") ∧
      (Writable "b" d' ∧ b.records d' = .ok (nameless :: filled)) ∧
      after'.1 = .ok [0, 1] ∧ b.records after'.2 = .ok (nameless :: left) := by
  intro b entries filled nameless d d' t after after' left
  have hcomplete : ∀ e ∈ entries, e.Complete := by
    simp [entries, Snapshot.Entry.Complete]
  have hwritable : Writable "b" d := writable_put_file
  have hwritable' : Writable "b" d' := writable_put_file
  have hrecords : b.records d = .ok filled := records_put_writeFile filled
  have hrecords' : b.records d' = .ok (nameless :: filled) := records_put_writeFile _
  -- Nothing else is known of the disks, so that they need not be evaluated.
  clear_value d d'
  have hbefore : b.snapshot d = .ok (.ofEntries entries) :=
    snapshot_eq_ok_iff.mpr ⟨entries, hrecords, hcomplete, rfl⟩
  obtain ⟨hresult, hleft, hoverlay⟩ := add_overlays_batch hwritable hrecords t [0, 1]
  obtain ⟨hresult', hleft', -⟩ := add_overlays_batch hwritable' hrecords' t [0, 1]
  obtain ⟨s, s', hread, hread', -, hvalues⟩ := hoverlay
    (List.forall_mem_map.mpr fun e he => ⟨e, hcomplete e he, rfl⟩) (by decide)
  obtain rfl : Snapshot.ofEntries entries = s := Except.ok.inj (hbefore.symm.trans hread)
  refine ⟨⟨hwritable, hrecords⟩, hresult, hleft.trans ?_, ⟨s', hread', ?_, ?_⟩,
    ⟨hwritable', hrecords'⟩, hresult', hleft'.trans ?_⟩
  · decide +kernel
  · rw [hvalues]
    decide +kernel
  · rw [hvalues]
    decide +kernel
  · decide +kernel

end FileBackup

end Telemetry.Backup

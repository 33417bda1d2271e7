-- SUMMARY: Several calls at a time in sync mode: unless an older snapshot is in flight when an addition is written through, memory and backup agree in the end.
import Mathlib
import Telemetry.Proofs.Backup.Retention
import Telemetry.Proofs.Store.Calls
import Telemetry.Proofs.Store.Refusal

/-!
# Agreement of memory and backup

Between the two steps of an addition the backup lacks the entries that are about to be written through.
What carries a run is that these entries, laid over the backup, give the memory, and that they do so for
every snapshot in flight: one that a backup in the making has read from memory, or one that was read from
the backup to be restored. The invariant breaks in one place only. When an addition has been written
through nothing is pending any more, so a snapshot in flight has to be the one of the memory by then.
-/

namespace Telemetry

/-! ## What is retained -/

/-- The backup retains every value in memory. -/
def Storage.Retained (s : Storage) : Prop :=
  ∀ m : Metric, m.entry ∈ s.snapshot.toEntries → s.backup.Retains m

namespace Concurrent

/-- The snapshot that a call has read. -/
def Call.snapshot? : Call → Option Snapshot
  | .overwrite snapshot => some snapshot
  | .replace snapshot => some snapshot
  | _ => none

/-- The snapshots that calls have read and not used yet. -/
def inFlight (w : Concurrent) : List Snapshot :=
  w.calls.filterMap Call.snapshot?

/-- If the event writes an addition through, all snapshots in flight are the one of the memory. -/
def Allows (w : Concurrent) : Event → Prop
  | .proceed => ∀ stored, w.holder = some (.writeThrough stored) →
      ∀ snapshot ∈ w.inFlight, snapshot = w.storage.snapshot
  | _ => True

/-- At all times the backup retains what is in memory, and no addition is written through while an older
    snapshot is in flight. -/
def Undisturbed (w : Concurrent) : List Event → Prop
  | [] => w.storage.Retained
  | e :: events => w.storage.Retained ∧ w.Allows e ∧ (w.step e).Undisturbed events

/-- All calls that have returned have succeeded. -/
def Succeeds (w : Concurrent) : Prop :=
  ∀ result ∈ w.results, result = .ok ()

/-! ## The invariant -/

/-- The metrics that are in memory and about to be written through. -/
def pending (w : Concurrent) : List Metric :=
  match w.holder with
  | some (.writeThrough stored) => w.storage.instances.metrics stored
  | _ => []

end Concurrent

/-- The entries of metrics laid over a snapshot. -/
def Snapshot.overlay (s : Snapshot) (metrics : List Metric) : Snapshot :=
  (metrics.map Metric.entry).foldl Snapshot.put s

/-- The backup together with the pending metrics has what is in memory. -/
structure Storage.Agrees (s : Storage) (pending : List Metric) : Prop where
  sync : s.sync = true
  filed : s.memory.Filed s.instances
  sound : s.site.Sound
  backup : ∃ b, s.backup.snapshot s.site = .ok b ∧ b.overlay pending = s.snapshot
  stored : ∀ m ∈ pending, m.entry ∈ s.snapshot.toEntries

namespace Concurrent

/-- The call names instances that are there, or has a snapshot that is the one of the memory together with
    the pending metrics. A snapshot that is to be written over the backup is retained by it. -/
def Call.Fits (s : Storage) (pending : List Metric) : Call → Prop
  | .add handles => MemoryStore.Known s.instances handles
  | .overwrite snapshot => snapshot.Canonical ∧
      (∀ m : Metric, m.entry ∈ snapshot.toEntries → s.backup.Retains m) ∧
      snapshot.overlay pending = s.snapshot
  | .replace snapshot => snapshot.overlay pending = s.snapshot
  | _ => True

/-- The call with the lock names instances that are there or has the snapshot of the memory. -/
def Holder.Fits (s : Storage) : Holder → Prop
  | .add handles => MemoryStore.Known s.instances handles
  | .writeThrough _ => True
  | .replace snapshot => snapshot = s.snapshot

/-- Memory, backup and all calls fit together, and the memory has what the metrics that it has taken make
    of what it had at the start. -/
structure InStep (start : Storage) (w : Concurrent) : Prop where
  agrees : w.storage.Agrees w.pending
  calls : ∀ call ∈ w.calls, call.Fits w.storage w.pending
  holder : ∀ holder ∈ w.holder, holder.Fits w.storage
  values : ∀ kind name, w.storage.value? kind name =
    (updates w.taken kind name).foldl (fun before v => some (MemoryStore.absorb v before))
      (start.value? kind name)

theorem pending_of_none {w : Concurrent} (h : w.holder = none) : w.pending = [] := by
  unfold pending
  rw [h]

theorem inStep_idle {s : Storage} (hsync : s.sync = true) (hfiled : s.memory.Filed s.instances)
    (hsound : s.site.Sound) (hagree : s.backup.snapshot s.site = .ok s.snapshot) :
    (idle s).InStep s where
  agrees := ⟨hsync, hfiled, hsound, ⟨s.snapshot, hagree, rfl⟩, fun _ h => nomatch h⟩
  calls := fun _ h => nomatch h
  holder := fun _ h => nomatch h
  values := fun _ _ => rfl

/-! ## Steps without the lock -/

/-- What a call of its own does to the list of calls keeps the others. -/
theorem InStep.lock {start : Storage} {w : Concurrent} (h : w.InStep start) (n : Nat)
    {holder : Holder} (hpending : ∀ stored, holder ≠ .writeThrough stored)
    (hfits : w.holder = none → holder.Fits w.storage) : (w.lock n holder).InStep start := by
  unfold Concurrent.lock
  cases hholder : w.holder with
  | some _ => exact h
  | none =>
    have hnone := pending_of_none hholder
    have hnew : ({ w with calls := w.calls.eraseIdx n, holder := some holder } :
        Concurrent).pending = w.pending := by
      rw [hnone]
      unfold pending
      split
      · rename_i stored heq
        exact absurd (Option.some.inj heq) (hpending stored)
      · rfl
    refine ⟨?_, fun call hcall => ?_, fun other hother => ?_, h.values⟩
    · rw [hnew]
      exact h.agrees
    · rw [hnew]
      exact h.calls call (List.mem_of_mem_eraseIdx hcall)
    · cases hother
      exact hfits hholder

/-- A call that goes on to a step that fits leaves everything else. -/
theorem InStep.set {start : Storage} {w : Concurrent} (h : w.InStep start) (n : Nat) {call : Call}
    (hfits : call.Fits w.storage w.pending) :
    ({ w with calls := w.calls.set n call } : Concurrent).InStep start := by
  refine ⟨h.agrees, fun other hother => ?_, h.holder, h.values⟩
  rcases List.mem_or_eq_of_mem_set hother with hother | rfl
  · exact h.calls other hother
  · exact hfits

/-- Laid over the memory, the pending metrics change nothing. -/
theorem overlay_snapshot {s : Storage} {pending : List Metric} (h : s.Agrees pending) :
    s.snapshot.overlay pending = s.snapshot := by
  obtain ⟨b, hread, hb⟩ := h.backup
  rw [← hb]
  exact Snapshot.foldl_put_foldl_put _ (Backup.populated_of_snapshot hread)

/-- A snapshot that fits is written over the backup. -/
theorem InStep.overwrite {start : Storage} {w : Concurrent} (h : w.InStep start) (n : Nat)
    {snapshot : Snapshot} (hfits : (Call.overwrite snapshot).Fits w.storage w.pending)
    (hok : (w.storage.overwrite snapshot).1 = .ok ()) :
    (w.finish n (w.storage.overwrite snapshot).1 (w.storage.overwrite snapshot).2).InStep start := by
  obtain ⟨hcanonical, hretains, hoverlay⟩ := hfits
  obtain ⟨b, hread, hb⟩ := h.agrees.backup
  have hrestore : w.storage.backup.restore snapshot w.storage.site =
      (.ok (), (w.storage.overwrite snapshot).2.site) := Prod.ext hok rfl
  obtain ⟨b', hread', hb'⟩ :=
    Backup.snapshot_of_restore h.agrees.sound hread hcanonical hretains hrestore
  have hsound := Backup.sound_restore h.agrees.sound w.storage.backup snapshot
  refine ⟨⟨h.agrees.sync, h.agrees.filed, hsound, ⟨b', hread', ?_⟩, h.agrees.stored⟩,
    fun call hcall => h.calls call (List.mem_of_mem_eraseIdx hcall), h.holder, h.values⟩
  rcases hb' with rfl | rfl
  · exact hoverlay
  · exact Snapshot.foldl_put_overlay (Backup.populated_of_snapshot hread) hoverlay hb

theorem InStep.advance {start : Storage} {w : Concurrent} (h : w.InStep start)
    (hretained : w.storage.Retained) (n : Nat) (hok : (w.advance n).Succeeds) :
    (w.advance n).InStep start := by
  cases hcall : w.calls[n]? with
  | none =>
    unfold Concurrent.advance
    rw [hcall]
    exact h
  | some call =>
    have hfits := h.calls call (List.mem_of_getElem? hcall)
    unfold Concurrent.advance at hok ⊢
    rw [hcall] at hok ⊢
    dsimp only at hok ⊢
    cases call with
    | add handles => exact h.lock n (fun _ => nofun) fun _ => hfits
    | backup =>
      exact h.set n ⟨MemoryStore.canonical_snapshot h.agrees.filed, hretained,
        overlay_snapshot h.agrees⟩
    | overwrite snapshot =>
      exact h.overwrite n hfits (hok _ (List.mem_append_right _ List.mem_cons_self))
    | restore =>
      obtain ⟨b, hread, hb⟩ := h.agrees.backup
      have hreadBackup : w.storage.readBackup = .ok b := within_eq_ok_iff.mpr hread
      rw [hreadBackup]
      exact h.set n hb
    | replace snapshot =>
      refine h.lock n (fun _ => nofun) fun hholder => ?_
      rw [Call.Fits, pending_of_none hholder] at hfits
      exact hfits

/-! ## Steps with the lock -/

/-- Once an addition has gone to memory, its metrics are pending. -/
theorem InStep.addToMemory {start : Storage} {w : Concurrent} (h : w.InStep start)
    {handles : List Handle} (hholder : w.holder = some (.add handles)) :
    ({ w with
      storage := (w.storage.addToMemory handles).2
      taken := w.taken ++ w.storage.memory.taken w.storage.instances handles
      holder := some (.writeThrough (w.storage.addToMemory handles).1) } :
        Concurrent).InStep start := by
  have hknown : MemoryStore.Known w.storage.instances handles := h.holder _ hholder
  have hpending : w.pending = [] := by
    unfold pending
    rw [hholder]
  have hfiled := h.agrees.filed
  -- Nothing was pending, so a snapshot that fits is the one of the memory.
  have hoverlay : ∀ {snapshot : Snapshot}, snapshot.overlay w.pending = w.storage.snapshot →
      snapshot.overlay ((w.storage.addToMemory handles).2.instances.metrics
        (w.storage.addToMemory handles).1) = (w.storage.addToMemory handles).2.snapshot := by
    intro snapshot hfits
    rw [hpending] at hfits
    obtain rfl : snapshot = w.storage.snapshot := hfits
    exact MemoryStore.foldl_put_snapshot hfiled hknown
  obtain ⟨b, hread, hb⟩ := h.agrees.backup
  refine ⟨⟨h.agrees.sync, MemoryStore.filed_add hfiled handles, h.agrees.sound,
    ⟨b, hread, hoverlay hb⟩, fun m hm => MemoryStore.entry_mem_snapshot_add hfiled hknown hm⟩,
    fun call hcall => ?_, fun holder hnew => ?_, fun kind name => ?_⟩
  · have hfits := h.calls call hcall
    cases call with
    | add others =>
      exact MemoryStore.Known.mono (Nat.le_of_eq (MemoryStore.size_add _ _ _).symm) hfits
    | overwrite snapshot => exact ⟨hfits.1, hfits.2.1, hoverlay hfits.2.2⟩
    | replace snapshot => exact hoverlay hfits
    | backup => trivial
    | restore => trivial
  · cases hnew
    trivial
  · rw [updates_append, List.foldl_append, ← h.values kind name]
    exact MemoryStore.value?_add hfiled handles kind name

/-- Once an addition has been written through, nothing is pending. -/
theorem InStep.writeThrough {start : Storage} {w : Concurrent} (h : w.InStep start)
    (hretained : w.storage.Retained) {stored : List Handle}
    (hholder : w.holder = some (.writeThrough stored))
    (hcurrent : ∀ snapshot ∈ w.inFlight, snapshot = w.storage.snapshot)
    (hok : (w.storage.writeThrough stored).1 = .ok ()) :
    (w.release (w.storage.writeThrough stored).1 (w.storage.writeThrough stored).2).InStep
      start := by
  have hpending : w.pending = w.storage.instances.metrics stored := by
    unfold pending
    rw [hholder]
  have hadd : w.storage.backup.add w.pending w.storage.site =
      (.ok (), (w.storage.writeThrough stored).2.site) := by
    rw [hpending]
    exact Prod.ext (within_eq_ok_iff.mp hok) rfl
  obtain ⟨b, hread, hb⟩ := h.agrees.backup
  have hread' := Backup.snapshot_of_add h.agrees.sound hread
    (fun m hm => hretained m (h.agrees.stored m hm)) hadd
  have hsound := Backup.sound_add h.agrees.sound w.storage.backup
    (w.storage.instances.metrics stored)
  refine ⟨⟨h.agrees.sync, h.agrees.filed, hsound, ⟨_, hread', hb⟩, fun _ hm => nomatch hm⟩,
    fun call hcall => ?_, fun _ hnew => (nomatch hnew), h.values⟩
  have hfits := h.calls call hcall
  cases call with
  | add handles => exact hfits
  | overwrite snapshot =>
    exact ⟨hfits.1, hfits.2.1, hcurrent snapshot (List.mem_filterMap.mpr ⟨_, hcall, rfl⟩)⟩
  | replace snapshot => exact hcurrent snapshot (List.mem_filterMap.mpr ⟨_, hcall, rfl⟩)
  | backup => trivial
  | restore => trivial

/-- A snapshot of the memory that replaces it leaves all values. -/
theorem InStep.replace {start : Storage} {w : Concurrent} (h : w.InStep start)
    {snapshot : Snapshot} (hholder : w.holder = some (.replace snapshot)) :
    (w.release (w.storage.restore snapshot).1 (w.storage.restore snapshot).2).InStep start := by
  have hsnapshot : snapshot = w.storage.snapshot := h.holder _ hholder
  have hpending : w.pending = [] := by
    unfold pending
    rw [hholder]
  have hcanonical : w.storage.snapshot.Canonical :=
    MemoryStore.canonical_snapshot h.agrees.filed
  obtain ⟨memory, instances, hrestore, hfiled, hsame⟩ :=
    MemoryStore.restore_of_canonical w.storage.instances hcanonical
  have hresult : w.storage.restore snapshot = (.ok (), { w.storage with memory, instances }) := by
    unfold Storage.restore
    rw [hsnapshot, hrestore]
  have hsize : w.storage.instances.size ≤ instances.size := by
    obtain ⟨metrics, -, hmetrics⟩ := MemoryStore.restore_eq_ok_iff.mp hrestore
    have hle := MemoryStore.size_le_size_ofMetrics w.storage.instances metrics
    rwa [hmetrics] at hle
  obtain ⟨b, hread, hb⟩ := h.agrees.backup
  rw [hresult]
  refine ⟨⟨h.agrees.sync, hfiled, h.agrees.sound, ⟨b, hread, ?_⟩, fun _ hm => nomatch hm⟩,
    fun call hcall => ?_, fun _ hnew => (nomatch hnew), fun kind name => ?_⟩
  · rw [hpending] at hb
    exact hb.trans hsame.symm
  · have hfits := h.calls call hcall
    rw [hpending] at hfits
    cases call with
    | add handles => exact MemoryStore.Known.mono hsize hfits
    | overwrite other => exact ⟨hfits.1, hfits.2.1, hfits.2.2.trans hsame.symm⟩
    | replace other => exact hfits.trans hsame.symm
    | backup => trivial
    | restore => trivial
  · refine Eq.trans ?_ (h.values kind name)
    exact MemoryStore.value?_eq_of_snapshot_eq hfiled h.agrees.filed hsame kind name

theorem InStep.proceed {start : Storage} {w : Concurrent} (h : w.InStep start)
    (hretained : w.storage.Retained) (hallows : w.Allows .proceed) (hok : w.proceed.Succeeds) :
    w.proceed.InStep start := by
  cases hholder : w.holder with
  | none =>
    unfold Concurrent.proceed
    rw [hholder]
    exact h
  | some holder =>
    unfold Concurrent.proceed at hok ⊢
    rw [hholder] at hok ⊢
    cases holder with
    | add handles =>
      have hsync : (w.storage.addToMemory handles).2.sync = true := h.agrees.sync
      dsimp only
      rw [if_pos hsync]
      exact h.addToMemory hholder
    | writeThrough stored =>
      exact h.writeThrough hretained hholder (hallows stored hholder)
        (hok _ (List.mem_append_right _ List.mem_cons_self))
    | replace snapshot => exact h.replace hholder

/-! ## Runs -/

theorem InStep.step {start : Storage} {w : Concurrent} (h : w.InStep start)
    (hretained : w.storage.Retained) {e : Event} (hallows : w.Allows e)
    (hok : (w.step e).Succeeds) : (w.step e).InStep start := by
  cases e with
  | begin r =>
    unfold Concurrent.step
    dsimp only
    split
    · rename_i hknown
      refine ⟨h.agrees, fun call hcall => ?_, h.holder, h.values⟩
      rcases List.mem_append.mp hcall with hcall | hcall
      · exact h.calls call hcall
      · obtain rfl := List.mem_singleton.mp hcall
        cases r with
        | add handles =>
          exact fun handle hmem => Option.isSome_iff_exists.mp (List.all_eq_true.mp hknown handle hmem)
        | backup => trivial
        | restore => trivial
    · exact h
  | advance n => exact h.advance hretained n hok
  | proceed => exact h.proceed hretained hallows hok

@[simp] theorem results_lock (w : Concurrent) (n : Nat) (holder : Holder) :
    (w.lock n holder).results = w.results := by
  unfold Concurrent.lock
  cases w.holder <;> rfl

/-- A call that has returned stays returned. -/
theorem results_subset_step (w : Concurrent) (e : Event) : w.results ⊆ (w.step e).results := by
  cases e with
  | begin r =>
    unfold Concurrent.step
    dsimp only
    split <;> exact List.Subset.refl _
  | advance n =>
    change w.results ⊆ (w.advance n).results
    unfold Concurrent.advance
    cases w.calls[n]? with
    | none => exact List.Subset.refl _
    | some call =>
      cases call with
      | add handles =>
        dsimp only
        rw [results_lock]
        exact List.Subset.refl _
      | backup => exact List.Subset.refl _
      | overwrite snapshot => exact List.subset_append_left _ _
      | restore =>
        dsimp only
        cases w.storage.readBackup with
        | ok snapshot => exact List.Subset.refl _
        | error e => exact List.subset_append_left _ _
      | replace snapshot =>
        dsimp only
        rw [results_lock]
        exact List.Subset.refl _
  | proceed =>
    change w.results ⊆ w.proceed.results
    unfold Concurrent.proceed
    cases w.holder with
    | none => exact List.Subset.refl _
    | some holder =>
      cases holder with
      | add handles =>
        dsimp only
        split
        · exact List.Subset.refl _
        · exact List.subset_append_left _ _
      | writeThrough stored => exact List.subset_append_left _ _
      | replace snapshot => exact List.subset_append_left _ _

theorem results_subset_run (w : Concurrent) (events : List Event) :
    w.results ⊆ (w.run events).results := by
  induction events generalizing w with
  | nil => exact List.Subset.refl _
  | cons e events ih => exact List.Subset.trans (results_subset_step w e) (ih (w.step e))

theorem InStep.run {start : Storage} {w : Concurrent} (h : w.InStep start) {events : List Event}
    (hundisturbed : w.Undisturbed events) (hok : (w.run events).Succeeds) :
    (w.run events).InStep start := by
  induction events generalizing w with
  | nil => exact h
  | cons e events ih =>
    obtain ⟨hretained, hallows, hrest⟩ := hundisturbed
    have hstep : (w.step e).Succeeds := fun result hresult =>
      hok result (results_subset_run (w.step e) events hresult)
    exact ih (h.step hretained hallows hstep) hrest hok

/-- In sync mode, if the backup has what is in memory at the start, retains what is in memory all the time,
    and no addition is written through while an older snapshot is in flight, then once all calls have
    returned and succeeded the backup has what is in memory, and this is what all metrics that were added
    make of the values from the start, in whatever way the steps of the calls are interleaved. -/
theorem backup_agrees_once_idle {s : Storage} (hsync : s.sync = true)
    (hfiled : s.memory.Filed s.instances) (hsound : s.site.Sound)
    (hagree : s.backup.snapshot s.site = .ok s.snapshot) {events : List Event}
    (hundisturbed : (idle s).Undisturbed events) :
    let w := (idle s).run events
    w.isIdle = true → w.Succeeds →
      w.storage.backup.snapshot w.storage.site = .ok w.storage.snapshot ∧
      ∀ kind name, w.storage.value? kind name =
        (updates w.taken kind name).foldl
          (fun before v => some (MemoryStore.absorb v before)) (s.value? kind name) := by
  intro w hidle hok
  have h : w.InStep s := (inStep_idle hsync hfiled hsound hagree).run hundisturbed hok
  have hholder : w.holder = none := Option.isNone_iff_eq_none.mp (Bool.and_eq_true_iff.mp hidle).2
  obtain ⟨b, hread, hb⟩ := h.agrees.backup
  rw [pending_of_none hholder] at hb
  obtain rfl : b = w.storage.snapshot := hb
  exact ⟨hread, h.values⟩

/-! ## Runs that disturb and runs that do not -/

theorem retained_of_toEntries {s : Storage} (metrics : List Metric)
    (hentries : s.snapshot.toEntries = metrics.map Metric.entry)
    (hretains : ∀ m ∈ metrics, s.backup.Retains m) : s.Retained := by
  intro m hm
  rw [hentries] at hm
  obtain ⟨m', hm', hentry⟩ := List.mem_map.mp hm
  rw [← Metric.entry_injective hentry]
  exact hretains m' hm'

/-- A storage over new tables in memory, and two instances of a counter that are not stored yet. -/
def loose : Storage :=
  let (c, site) := Database.Connection.openMemory .empty
  .start ⟨#[⟨"a", .counter 5⟩, ⟨"a", .counter 2⟩]⟩ (.database c) true (c.migrate site).2

theorem sound_loose : loose.site.Sound :=
  Database.Connection.sound_migrate (Database.Connection.sound_openMemory Site.sound_empty) _

/-- A backup may read the memory between the two steps of an addition. -/
theorem backup_agrees_after_read_within_addition :
    let events : List Event := [.begin (.add [0]), .begin .backup, .advance 0, .proceed,
      .advance 0, .proceed, .advance 0]
    let w := (idle loose).run events
    loose.sync = true ∧ loose.memory.Filed loose.instances ∧ loose.site.Sound ∧
      loose.backup.snapshot loose.site = .ok loose.snapshot ∧ (idle loose).Undisturbed events ∧
      w.isIdle = true ∧ w.Succeeds ∧
      w.storage.backup.snapshot w.storage.site = .ok w.storage.snapshot ∧
      w.storage.value? .counter "a" = some (.counter 5) := by
  intro events w
  have hfiled : loose.memory.Filed loose.instances := MemoryStore.filed_empty _
  have hempty : ∀ {s : Storage}, s.snapshot.toEntries = [] → s.Retained :=
    fun h => retained_of_toEntries [] h nofun
  have hfive : ∀ {s : Storage}, s.snapshot.toEntries = [⟨"counter", "a", "5"⟩] →
      s.backup = loose.backup → s.Retained := by
    intro s h hbackup
    refine retained_of_toEntries [⟨"a", .counter 5⟩] h fun m hm => ?_
    obtain rfl := List.mem_singleton.mp hm
    rw [hbackup]
    exact ⟨nofun, Value.kept_counter (by decide)⟩
  have hundisturbed : (idle loose).Undisturbed events :=
    ⟨hempty (by decide +kernel), trivial, hempty (by decide +kernel), trivial,
      hempty (by decide +kernel), trivial, hempty (by decide +kernel), nofun,
      hfive (by decide +kernel) rfl, trivial, hfive (by decide +kernel) rfl,
      fun _ _ snapshot hmem => List.mem_singleton.mp hmem,
      hfive (by decide +kernel) rfl, trivial, hfive (by decide +kernel) rfl⟩
  have hok : w.Succeeds := by
    have hresults : w.results = [.ok (), .ok ()] := rfl
    intro result hresult
    rw [hresults] at hresult
    simpa using hresult
  obtain ⟨hagree, hvalues⟩ :=
    backup_agrees_once_idle (s := loose) rfl hfiled sound_loose rfl hundisturbed rfl hok
  exact ⟨rfl, hfiled, sound_loose, rfl, hundisturbed, rfl, hok, hagree, hvalues .counter "a"⟩

/-- A backup that has read the memory before an addition and is written after it takes the addition back,
    though all calls succeed. Behind a backup that is switched off every addition is lost. -/
theorem backup_disagrees_after_race :
    let w := (idle loose).run [.begin (.add [0]), .advance 0, .proceed, .proceed, .begin .backup,
      .advance 0, .begin (.add [1]), .advance 1, .proceed, .proceed, .advance 0]
    let off := Storage.start loose.instances (.file ⟨none⟩) true loose.site
    (loose.backup.snapshot loose.site = .ok loose.snapshot ∧ w.isIdle = true ∧
      w.results = [.ok (), .ok (), .ok ()] ∧
      w.storage.backup.snapshot w.storage.site ≠ .ok w.storage.snapshot) ∧
    off.backup.snapshot off.site = .ok off.snapshot ∧ (off.add [0]).1 = .ok [0] ∧
      (off.add [0]).2.backup.snapshot (off.add [0]).2.site ≠ .ok (off.add [0]).2.snapshot := by
  intro w off
  refine ⟨⟨rfl, rfl, rfl, fun hsame => ?race⟩, rfl, rfl, fun hsame => ?off⟩
  case race =>
    have hbackup : (w.storage.backup.snapshot w.storage.site).map
        (·.value? "counter" "a") = .ok (some "5") := rfl
    have hmemory : w.storage.snapshot.value? "counter" "a" = some "7" := by decide +kernel
    rw [hsame] at hbackup
    exact absurd (hmemory.symm.trans (Except.ok.inj hbackup)) (by decide)
  case off =>
    have hmemory : (off.add [0]).2.snapshot.value? "counter" "a" = some "5" := by decide +kernel
    have hempty : SortedMap.empty = (off.add [0]).2.snapshot := Except.ok.inj hsame
    rw [← hempty] at hmemory
    cases hmemory

end Concurrent

end Telemetry

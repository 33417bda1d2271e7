-- SUMMARY: Counters in a database: each is rounded to a binary64 number once, the same way on both paths, and never drifts further.
import Mathlib
import Telemetry.Proofs.Backup.Lookups
import Telemetry.Proofs.Number.Grid

/-!
# Counters in a database

A counter is kept as the nearest binary64 number and comes back as the integer of this number. A snapshot
that is restored brings the same number, for its text is rounded as the counter is. So what a first backup
has made of a counter stays as it is, however often it is restored and read again.
-/

namespace Telemetry

open Database

/-! ## Numbers -/

/-- Under each key of the tables stands a number. -/
def Database.Tables.Numeric (t : Tables) : Prop :=
  ∀ type name v, t.value? type name = some v → ∃ x, v = some x ∧ x ≠ .nan

/-- Every value of the snapshot is the text of a number. -/
def Snapshot.Numeric (s : Snapshot) : Prop :=
  ∀ type name text, s.value? type name = some text → ∃ x, readReal text = .ok x ∧ x ≠ .nan

theorem Snapshot.Numeric.readReal {s : Snapshot} (h : s.Numeric) :
    ∀ e ∈ s.toEntries, ∃ x, readReal e.value = .ok x := by
  intro e he
  obtain ⟨x, hx, -⟩ := h e.type e.name e.value (Snapshot.mem_toEntries_iff.mp he)
  exact ⟨x, hx⟩

namespace Backup

namespace Tabular

theorem storedReal_of_number {x : Binary64} (h : x ≠ .nan) :
    storedReal x = some x.withPositiveZero ∧ x.withPositiveZero ≠ .nan := by
  cases x with
  | nan => exact absurd rfl h
  | signed negative place =>
    refine ⟨rfl, ?_⟩
    unfold Binary64.withPositiveZero
    dsimp only
    split <;> exact (nomatch ·)

/-- The text that the snapshot shows for a number reads as a number. -/
theorem readReal_valueText (type : String) {x : Binary64} (h : x ≠ .nan) :
    ∃ y, readReal (valueText type x) = .ok y ∧ y ≠ .nan := by
  unfold valueText
  split
  · exact ⟨_, readReal_toString x.toInt64, (nomatch ·)⟩
  · exact ⟨x, readReal_text x, h⟩

/-- Numbers under all keys are read as a snapshot of numbers. -/
theorem exists_readRows_of_numeric {t : Tables} (h : t.Sound) (hnumeric : t.Numeric) :
    ∃ s, readRows t = .ok s ∧ s.Numeric ∧ ∀ type name x, t.value? type name = some (some x) →
      s.value? type name = some (valueText type x) := by
  obtain ⟨s, hread⟩ := exists_readRows h fun type name hnone => by
    obtain ⟨x, hx, -⟩ := hnumeric type name none hnone
    cases hx
  refine ⟨s, hread, fun type name text htext => ?_, fun type name x hx => ?_⟩
  · rcases exists_value?_of_readRows h hread type name with ⟨-, hnone⟩ | ⟨x, hx, hsome⟩
    · rw [hnone] at htext
      cases htext
    · obtain ⟨y, hy, hnumber⟩ := hnumeric type name _ hx
      cases hy
      rw [hsome] at htext
      cases htext
      exact readReal_valueText type hnumber
  · rcases exists_value?_of_readRows h hread type name with ⟨hnone, -⟩ | ⟨y, hy, hsome⟩
    · rw [hnone] at hx
      cases hx
    · rw [hy] at hx
      cases hx
      exact hsome

end Tabular

/-! ## Both ways into the database -/

/-- Restoring the entries of metrics writes the rows of the metrics. -/
theorem restore_eq_add {c : Connection} {site : Site} {t : Tables} (h : c.Ready site t)
    {s : Snapshot} {metrics : List Metric} (hs : s.toEntries = metrics.map Metric.entry) :
    (database c).restore s site = (database c).add metrics site := by
  obtain ⟨site', hupdate, -⟩ := h.update (metrics.map Tabular.fullRowOf)
  rw [← Tabular.map_rowOf] at hupdate
  change Tabular.restore c.relational s site = Tabular.add c.relational metrics site
  unfold Tabular.restore Tabular.add Connection.relational
  simp only [hs, Tabular.mapM_rowOfEntry, hupdate, within_ok]

/-- A counter that was stored comes back rounded. -/
theorem get_of_add_counter {c : Connection} {site : Site} {t : Tables} (h : c.Ready site t)
    (hsound : t.Sound) (name : String) (count : Int64) :
    ∃ site', (database c).add [⟨name, .counter count⟩] site = (.ok (), site') ∧
      (database c).get Kind.counter.name name site' = .ok ⟨name, .counter (keptCount count)⟩ ∧
      ∀ s, (database c).snapshot site' = .ok s →
        s.value? Kind.counter.name name = some (Value.counter (keptCount count)).text := by
  obtain ⟨site', hadd, hready⟩ := add_of_ready h [⟨name, .counter count⟩]
  have hsound' := hsound.upsert (Tabular.fullRowOf ⟨name, .counter count⟩)
  have hvalue : (t.upsert (Tabular.fullRowOf ⟨name, .counter count⟩)).value? Kind.counter.name name =
      some (some (Binary64.ofInt64 count).withPositiveZero) := by
    rw [Tables.value?_upsert hsound]
    exact if_pos ⟨rfl, rfl⟩
  have hget : (database c).get Kind.counter.name name site' =
      .ok ⟨name, .counter (keptCount count)⟩ := by
    rw [get_of_ready hready hsound', List.map_singleton, List.foldl_cons, List.foldl_nil, hvalue]
    refine (Tabular.metricOf_of_kind .counter name _).trans ?_
    rw [Tabular.valueOf, Binary64.toInt64_withPositiveZero, keptCount]
  refine ⟨site', hadd, hget, fun s hread => ?_⟩
  rcases get_of_snapshot hready hsound' hread .counter name with ⟨-, hnone⟩ | ⟨value, -, hsome, hvalue⟩
  · rw [hget] at hnone
    cases hnone
  · rw [hget] at hvalue
    cases hvalue
    exact hsome

/-! ## Cycles -/

/-- Restore a snapshot and read it back, so many times. -/
def cycles (b : Backup) : Nat → Snapshot → Site → Outcome Snapshot × Site
  | 0, s, site => (.ok s, site)
  | k + 1, s, site =>
    match b.restore s site with
    | (.error e, site) => (.error e, site)
    | (.ok (), site) =>
      match b.snapshot site with
      | .ok s => b.cycles k s site
      | .error e => (.error e, site)

/-- One cycle rounds the counters of the snapshot. -/
theorem exists_cycle {c : Connection} {site : Site} {t : Tables} (h : c.Ready site t)
    (hsound : t.Sound) (hnumeric : t.Numeric) {s : Snapshot} (hs : s.Numeric) :
    ∃ (t' : Tables) (site' : Site) (s' : Snapshot),
      (database c).restore s site = (.ok (), site') ∧ (database c).snapshot site' = .ok s' ∧
      c.Ready site' t' ∧ t'.Sound ∧ t'.Numeric ∧ s'.Numeric ∧
      ∀ name count, s.value? Kind.counter.name name = some (Value.counter count).text →
        s'.value? Kind.counter.name name = some (Value.counter (keptCount count)).text := by
  obtain ⟨log, site', hrestore, hready, hlast⟩ := restore_of_ready h hs.readReal
  have hsound' := hsound.foldl_upsert log
  have hvalue : ∀ type name text x, s.value? type name = some text → readReal text = .ok x →
      x ≠ .nan → (log.foldl Tables.upsert t).value? type name = some (some x.withPositiveZero) := by
    intro type name text x htext hx hnumber
    rw [Tables.value?_foldl_upsert hsound, hlast, htext, Option.bind_some,
      Tabular.number?_eq_some_iff.mpr hx, Option.map_some,
      (Tabular.storedReal_of_number hnumber).1, Option.some_or]
  have hnumeric' : (log.foldl Tables.upsert t).Numeric := by
    intro type name v hv
    cases htext : s.value? type name with
    | some text =>
      obtain ⟨x, hx, hnumber⟩ := hs type name text htext
      rw [hvalue type name text x htext hx hnumber] at hv
      cases hv
      exact ⟨_, rfl, (Tabular.storedReal_of_number hnumber).2⟩
    | none =>
      rw [Tables.value?_foldl_upsert hsound, hlast, htext, Option.bind_none, Option.map_none,
        Option.none_or] at hv
      exact hnumeric type name v hv
  obtain ⟨s', hread, hs', htexts⟩ := Tabular.exists_readRows_of_numeric hsound' hnumeric'
  refine ⟨_, site', s', hrestore, (snapshot_of_tables hready.isOpen hready.tables).trans hread,
    hready, hsound', hnumeric', hs', fun name count htext => ?_⟩
  have hreal : readReal (Value.counter count).text = .ok (.ofInt64 count) := readReal_toString count
  rw [htexts _ _ _ (hvalue _ _ _ _ htext hreal (nomatch ·)), ← Tabular.text_valueOf,
    Tabular.valueOf, Binary64.toInt64_withPositiveZero, keptCount]

/-- Cycles over numbers succeed and round the counters once for each. -/
theorem exists_cycles {c : Connection} {site : Site} {t : Tables} (h : c.Ready site t)
    (hsound : t.Sound) (hnumeric : t.Numeric) {s : Snapshot} (hs : s.Numeric) (k : Nat) :
    ∃ (s' : Snapshot) (site' : Site), (database c).cycles k s site = (.ok s', site') ∧
      ∀ name count, s.value? Kind.counter.name name = some (Value.counter count).text →
        s'.value? Kind.counter.name name = some (Value.counter (keptCount^[k] count)).text := by
  induction k generalizing site t s with
  | zero => exact ⟨s, site, rfl, fun _ _ htext => htext⟩
  | succ k ih =>
    obtain ⟨t₁, site₁, s₁, hrestore, hread, hready₁, hsound₁, hnumeric₁, hs₁, hfirst⟩ :=
      exists_cycle h hsound hnumeric hs
    obtain ⟨s', site', hcycles, hrest⟩ := ih hready₁ hsound₁ hnumeric₁ hs₁
    refine ⟨s', site', ?_, fun name count htext => ?_⟩
    · unfold cycles
      rw [hrestore]
      dsimp only
      rw [hread]
      exact hcycles
    · rw [Function.iterate_succ_apply]
      exact hrest name _ (hfirst name count htext)

/-- What has been rounded once is not rounded further. -/
theorem iterate_keptCount (k : Nat) (count : Int64) : keptCount^[k + 1] count = keptCount count := by
  rw [Function.iterate_succ_apply]
  exact Function.iterate_fixed (keptCount_keptCount count) k

/-- A counter that is stored through a ready connection comes back as `keptCount` of it, from a look-up and
    in the snapshot, and restoring the entries of metrics does to the site what storing the metrics does.
    `keptCount` changes nothing exactly at counts of up to 53 binary digits with zeros behind them and at
    the greatest one, it is monotone, it is at most 512 away and a second time it changes nothing. So if
    there are only numbers in the tables and in a snapshot, it can be restored and read back any number of
    times, and the counters are those of the first time. -/
theorem database_rounds_counters_once {c : Connection} {site : Site} {t : Tables}
    (h : c.Ready site t) (hsound : t.Sound) :
    (∀ name count, ∃ site', (database c).add [⟨name, .counter count⟩] site = (.ok (), site') ∧
      (database c).get Kind.counter.name name site' = .ok ⟨name, .counter (keptCount count)⟩ ∧
      ∀ s, (database c).snapshot site' = .ok s →
        s.value? Kind.counter.name name = some (Value.counter (keptCount count)).text) ∧
    (∀ (s : Snapshot) (metrics : List Metric), s.toEntries = metrics.map Metric.entry →
      (database c).restore s site = (database c).add metrics site) ∧
    (∀ count, keptCount count = count ↔
      (∃ m < 2 ^ 53, ∃ k, count.toInt.natAbs = m * 2 ^ k) ∨ count = Int64.maxValue) ∧
    (∀ count count', count ≤ count' → keptCount count ≤ keptCount count') ∧
    (∀ count, |(keptCount count).toInt - count.toInt| ≤ 512) ∧
    (∀ count, keptCount (keptCount count) = keptCount count) ∧
    (t.Numeric → ∀ s : Snapshot, s.Numeric → ∀ k, ∃ (s' : Snapshot) (site' : Site),
      (database c).cycles (k + 1) s site = (.ok s', site') ∧
      ∀ name count, s.value? Kind.counter.name name = some (Value.counter count).text →
        s'.value? Kind.counter.name name = some (Value.counter (keptCount count)).text) := by
  refine ⟨get_of_add_counter h hsound, fun s metrics => restore_eq_add h,
    fun count => keptCount_eq_self_iff, fun count count' => keptCount_mono, keptCount_near,
    keptCount_keptCount, fun hnumeric s hs k => ?_⟩
  obtain ⟨s', site', hcycles, hcounts⟩ := exists_cycles h hsound hnumeric hs (k + 1)
  refine ⟨s', site', hcycles, fun name count htext => ?_⟩
  rw [hcounts name count htext, iterate_keptCount]

/-- The first counter that is not kept, and the last one but one, which is rounded out of the range. -/
theorem database_rounds_counters_once_nearBounds :
    let c := (Connection.openMemory .empty).1
    let before := (Connection.openMemory .empty).2
    let site := (c.migrate before).2
    c.Ready site .empty ∧ Tables.empty.Sound ∧
      (∃ site', (database c).add [⟨"a", .counter 9007199254740993⟩] site = (.ok (), site') ∧
        (database c).get Kind.counter.name "a" site' =
          .ok ⟨"a", .counter (keptCount 9007199254740993)⟩) ∧
      keptCount 9007199254740993 = 9007199254740992 ∧
      keptCount 9223372036854775806 = Int64.maxValue ∧
      keptCount 9223372036854775806 ≠ 9223372036854775806 := by
  intro c before site
  have hfresh : c.tables? before = none := rfl
  have hmigrate : c.migrate before = (.ok (), site) := rfl
  have hready : c.Ready site .empty := Connection.ready_of_migrate hfresh hmigrate
  have hsound := Tables.sound_empty
  obtain ⟨hget, -, -, -, -, -, -⟩ := database_rounds_counters_once hready hsound
  obtain ⟨site', hadd, hcount, -⟩ := hget "a" 9007199254740993
  refine ⟨hready, hsound, ⟨site', hadd, hcount⟩, ?_, ?_, ?_⟩
  · decide +kernel
  · decide +kernel
  · decide +kernel

end Backup

end Telemetry

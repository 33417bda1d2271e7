-- SUMMARY: The database backup: what is read back after any additions, and which values a column of binary64 numbers keeps.
import Mathlib
import Telemetry.Backup.Basic
import Telemetry.Proofs.Backup.File
import Telemetry.Proofs.Database.Listing
import Telemetry.Proofs.Number.Wholes
import Telemetry.Proofs.Store.Accumulation

/-!
# The database backup

Every value goes through a column of binary64 numbers, which keeps no not-a-number and no sign of zero, and
counters are rounded on the way in and cut on the way out. What is read back under a key is what the column
has kept of the value that was written last. One absent value makes the whole snapshot fail.
-/

namespace Telemetry

/-! ## What a column keeps -/

/-- What comes back of a value that is a number. -/
def Value.kept : Value → Value
  | counter count => counter (Binary64.ofInt64 count).toInt64
  | gauge level => gauge level.withPositiveZero

/-- A counter of up to 53 binary digits comes back. -/
theorem Value.kept_counter {count : Int64} (h : count.toInt.natAbs ≤ 2 ^ 53) :
    (counter count).kept = .counter count :=
  congrArg counter (Binary64.toInt64_ofInt64 h)

/-- A gauge comes back unless it is the negative zero. -/
theorem Value.kept_gauge {level : Binary64} (h : level ≠ .atPlace true 0) :
    (gauge level).kept = .gauge level := by
  unfold kept Binary64.withPositiveZero
  cases level with
  | nan => rfl
  | signed negative place =>
    dsimp only
    split
    · rename_i hzero
      obtain rfl : place = 0 := Fin.ext hzero
      cases negative with
      | true => exact absurd rfl h
      | false => rfl
    · rfl

namespace Backup.Tabular

open Database

/-- The text that is read back under the type of a value, if the column has kept anything. -/
theorem map_valueText_storedReal {v : Value} (h : v ≠ .gauge .nan) :
    (storedReal v.real).map (valueText v.kind.name) = some v.kept.text := by
  cases v with
  | counter count =>
    change some (toString (Binary64.ofInt64 count).withPositiveZero.toInt64.toInt) = _
    rw [Binary64.toInt64_withPositiveZero]
    rfl
  | gauge level =>
    cases level with
    | nan => exact absurd rfl h
    | signed negative place => rfl

/-! ## Reading -/

/-- The values of all rows of the tables. -/
def readRows (t : Tables) : Outcome Snapshot := do
  let entries ← t.rows.mapM entryOf
  .ok (.ofEntries entries)

theorem entryOf_eq_ok_iff {type name : String} {v : Option Binary64} {e : Snapshot.Entry} :
    entryOf ⟨some type, some name, v⟩ = .ok e ↔
      ∃ x, v = some x ∧ e = ⟨type, name, valueText type x⟩ := by
  cases v with
  | none => exact ⟨(nomatch ·), fun ⟨_, h, _⟩ => nomatch h⟩
  | some x =>
    constructor
    · intro h
      cases h
      exact ⟨x, rfl, rfl⟩
    · rintro ⟨_, h, rfl⟩
      cases h
      rfl

/-- The tables are read if no value is absent. -/
theorem exists_readRows {t : Tables} (h : t.Sound)
    (hpresent : ∀ type name, t.value? type name ≠ some none) : ∃ s, readRows t = .ok s := by
  have hrows : ∀ r ∈ t.rows, ∃ e, entryOf r = .ok e := by
    intro r hr
    obtain ⟨type, name, v, rfl, hvalue⟩ := (Tables.mem_rows_iff h).mp hr
    cases v with
    | none => exact absurd hvalue (hpresent type name)
    | some x => exact ⟨_, entryOf_eq_ok_iff.mpr ⟨x, rfl, rfl⟩⟩
  obtain ⟨entries, hentries⟩ := exists_mapM_eq_ok hrows
  unfold readRows
  rw [hentries]
  exact ⟨_, rfl⟩

/-- Tables that are read have no absent value, and the snapshot has the texts of all. -/
theorem value?_of_readRows {t : Tables} (h : t.Sound) {s : Snapshot} (hread : readRows t = .ok s) :
    s.Populated ∧ ∀ type name,
      (s.value? type name).map some = (t.value? type name).map (·.map (valueText type)) := by
  obtain ⟨entries, hentries, hs⟩ := bind_eq_ok_iff.mp hread
  cases hs
  refine ⟨Snapshot.populated_ofEntries entries, fun type name => ?_⟩
  rw [Snapshot.value?_ofEntries]
  cases hlast : Snapshot.last? entries type name with
  | some text =>
    obtain ⟨r, hr, hentry⟩ :=
      (mem_iff_of_mapM_eq_ok hentries).mp (Snapshot.mem_of_last?_eq_some hlast)
    obtain ⟨type', name', v, rfl, hvalue⟩ := (Tables.mem_rows_iff h).mp hr
    obtain ⟨x, rfl, heq⟩ := entryOf_eq_ok_iff.mp hentry
    cases heq
    rw [hvalue]
    rfl
  | none =>
    cases hvalue : t.value? type name with
    | none => rfl
    | some v =>
      have hrow := (Tables.mem_rows_iff h).mpr ⟨type, name, v, rfl, hvalue⟩
      obtain ⟨e, he, hentry⟩ := exists_of_mapM_eq_ok hentries hrow
      obtain ⟨x, -, rfl⟩ := entryOf_eq_ok_iff.mp hentry
      exact absurd ⟨rfl, rfl⟩ (Snapshot.last?_eq_none_iff.mp hlast _ he)

/-! ## Writing -/

/-- The row of a metric, with all its parts. -/
def fullRowOf (m : Metric) : FullRow :=
  ⟨m.kind.name, m.name, m.value.real⟩

theorem map_rowOf (batch : List Metric) :
    batch.map rowOf = (batch.map fullRowOf).map .ofFull := by
  rw [List.map_map]
  rfl

/-- The value that metrics bring for a key last. -/
def lastUpdate? (metrics : List Metric) (type name : String) : Option Value :=
  (Kind.ofName? type).bind fun k => (updates metrics k name).getLast?

theorem lastUpdate?_cons (m : Metric) (metrics : List Metric) (type name : String) :
    lastUpdate? (m :: metrics) type name =
      (lastUpdate? metrics type name).or
        (if type = m.kind.name ∧ name = m.name then some m.value else none) := by
  unfold lastUpdate?
  cases htype : Kind.ofName? type with
  | none =>
    have hne : ¬ (type = m.kind.name ∧ name = m.name) := by
      rintro ⟨rfl, -⟩
      rw [Kind.ofName?_name] at htype
      cases htype
    rw [if_neg hne]
    rfl
  | some k =>
    obtain rfl := Kind.ofName?_eq_some_iff.mp htype
    have hkey : k.name = m.kind.name ∧ name = m.name ↔ k = m.kind ∧ name = m.name :=
      and_congr_left' ⟨Kind.name_injective, fun h => h ▸ rfl⟩
    rw [Option.bind_some, Option.bind_some, updates_cons]
    simp only [hkey]
    split
    · rw [List.getLast?_cons]
      cases (updates metrics k name).getLast? <;> rfl
    · rw [Option.or_none]

theorem kind_of_lastUpdate? {metrics : List Metric} {type name : String} {v : Value}
    (h : lastUpdate? metrics type name = some v) : type = v.kind.name := by
  obtain ⟨k, htype, hlast⟩ := Option.bind_eq_some_iff.mp h
  rw [kind_of_mem_updates (List.mem_of_getLast? hlast)]
  exact Kind.ofName?_eq_some_iff.mp htype

/-- The log of metrics has under every key the number of their last update. -/
theorem lastWritten?_map_fullRowOf (metrics : List Metric) (type name : String) :
    lastWritten? (metrics.map fullRowOf) (type, name) =
      (lastUpdate? metrics type name).map (·.real) := by
  induction metrics with
  | nil =>
    unfold lastUpdate?
    cases Kind.ofName? type <;> rfl
  | cons m metrics ih =>
    rw [List.map_cons, lastWritten?_cons, lastUpdate?_cons, ih]
    simp only [FullRow.key, fullRowOf, Prod.mk.injEq]
    cases lastUpdate? metrics type name with
    | some v => rfl
    | none => split <;> rfl

/-- Under a key that has updates stands the last of them, and all other contents stay. -/
theorem value?_foldl_upsert {t : Tables} (h : t.Sound) (metrics : List Metric) (type name : String) :
    ((metrics.map fullRowOf).foldl Tables.upsert t).value? type name =
      ((lastUpdate? metrics type name).map fun v => storedReal v.real).or (t.value? type name) := by
  rw [Tables.value?_foldl_upsert h, lastWritten?_map_fullRowOf, Option.map_map]
  rfl

end Backup.Tabular

namespace Backup

open Database

theorem snapshot_of_tables {c : Connection} {site : Site} {t : Tables} (hopen : c.isOpen = true)
    (htables : c.tables? site = some t) : (database c).snapshot site = Tabular.readRows t := by
  change (do
    let rows ← within "read all db records" (c.query site (·.rows))
    let entries ← rows.mapM Tabular.entryOf
    Except.ok (Snapshot.ofEntries entries) : Outcome Snapshot) = _
  unfold Connection.query
  rw [hopen, htables]
  rfl

theorem add_of_ready {c : Connection} {site : Site} {t : Tables} (h : c.Ready site t)
    (batch : List Metric) :
    ∃ site', (database c).add batch site = (.ok (), site') ∧
      c.Ready site' ((batch.map Tabular.fullRowOf).foldl Tables.upsert t) := by
  obtain ⟨site', hupdate, h'⟩ := h.update (batch.map Tabular.fullRowOf)
  refine ⟨site', ?_, h'⟩
  unfold Backup.add Tabular.add Connection.relational
  rw [Tabular.map_rowOf]
  simp only [hupdate, within_ok]

/-- Store batches one after the other, up to the first that fails. -/
def addBatches (b : Backup) : List (List Metric) → Site → Outcome Unit × Site
  | [], site => (.ok (), site)
  | batch :: rest, site =>
    match b.add batch site with
    | (.ok (), site) => b.addBatches rest site
    | (.error e, site) => (.error e, site)

theorem addBatches_of_ready {c : Connection} {site : Site} {t : Tables} (h : c.Ready site t)
    (batches : List (List Metric)) :
    ∃ site', (database c).addBatches batches site = (.ok (), site') ∧
      c.Ready site' ((batches.flatten.map Tabular.fullRowOf).foldl Tables.upsert t) := by
  induction batches generalizing site t with
  | nil => exact ⟨site, rfl, h⟩
  | cons batch batches ih =>
    obtain ⟨site₁, hadd, h₁⟩ := add_of_ready h batch
    obtain ⟨site₂, hrest, h₂⟩ := ih h₁
    refine ⟨site₂, ?_, ?_⟩
    · rw [addBatches, hadd]
      exact hrest
    · rwa [List.flatten_cons, List.map_append, List.foldl_append]

/-- Over tables that were just made every addition succeeds. Unless not-a-number was written last under
    some key, the snapshot is read and has under every key that was written what is kept of the value
    written last, and no other key. Counters of up to 53 binary digits are kept as they are, and so are
    gauges other than the negative zero. -/
theorem database_keeps_last_values {c : Connection} {before site : Site}
    (hfresh : c.tables? before = none) (hmigrate : c.migrate before = (.ok (), site)) :
    (∀ batches, ((database c).addBatches batches site).1 = .ok ()) ∧
    (∀ batches, (∀ name, Tabular.lastUpdate? batches.flatten Kind.gauge.name name ≠
        some (.gauge .nan)) →
      ∃ s, (database c).snapshot ((database c).addBatches batches site).2 = .ok s ∧
        ∀ type name, s.value? type name =
          (Tabular.lastUpdate? batches.flatten type name).map fun v => v.kept.text) ∧
    (∀ count : Int64, count.toInt.natAbs ≤ 2 ^ 53 →
      (Value.counter count).kept = .counter count) ∧
    (∀ level : Binary64, level ≠ .atPlace true 0 → (Value.gauge level).kept = .gauge level) := by
  have hready := Connection.ready_of_migrate hfresh hmigrate
  refine ⟨fun batches => ?_, fun batches hnumbers => ?_, fun count => Value.kept_counter,
    fun level => Value.kept_gauge⟩
  · obtain ⟨site', hadd, -⟩ := addBatches_of_ready hready batches
    rw [hadd]
  · obtain ⟨site', hadd, hready'⟩ := addBatches_of_ready hready batches
    have hsound := Tables.sound_empty.foldl_upsert (batches.flatten.map Tabular.fullRowOf)
    have hvalue := Tabular.value?_foldl_upsert Tables.sound_empty batches.flatten
    simp only [Tables.value?_empty, Option.or_none] at hvalue
    have hnumber : ∀ {type name v}, Tabular.lastUpdate? batches.flatten type name = some v →
        (storedReal v.real).map (Tabular.valueText type) = some v.kept.text := by
      intro type name v hlast
      obtain rfl := Tabular.kind_of_lastUpdate? hlast
      refine Tabular.map_valueText_storedReal ?_
      rintro rfl
      exact hnumbers name hlast
    obtain ⟨s, hread⟩ := Tabular.exists_readRows hsound fun type name hnone => by
      rw [hvalue] at hnone
      obtain ⟨v, hlast, hstored⟩ := Option.map_eq_some_iff.mp hnone
      have hkept := hnumber hlast
      rw [hstored] at hkept
      cases hkept
    rw [hadd, snapshot_of_tables hready'.isOpen hready'.tables]
    refine ⟨s, hread, fun type name => ?_⟩
    refine Option.map_injective (Option.some_injective _) ?_
    rw [(Tabular.value?_of_readRows hsound hread).2 type name, hvalue]
    cases hlast : Tabular.lastUpdate? batches.flatten type name with
    | none => rfl
    | some v => exact congrArg some (hnumber hlast)

/-- A counter and a gauge that are written twice, the gauge not as a number at first. -/
theorem database_keeps_last_of_two :
    let c : Connection := (Connection.openMemory .empty).1
    let before := (Connection.openMemory .empty).2
    let site := (c.migrate before).2
    let batches : List (List Metric) :=
      [[⟨"a", .counter 1⟩, ⟨"b", .gauge .nan⟩], [⟨"a", .counter 3⟩, ⟨"b", .gauge (.ofNat 1)⟩]]
    c.tables? before = none ∧ c.migrate before = (.ok (), site) ∧
      (∀ name, Tabular.lastUpdate? batches.flatten Kind.gauge.name name ≠
        some (.gauge .nan)) ∧
      ∃ s, (database c).snapshot ((database c).addBatches batches site).2 = .ok s ∧
        s.value? "counter" "a" = some "3" := by
  intro c before site batches
  have hfresh : c.tables? before = none := rfl
  have hmigrate : c.migrate before = (.ok (), site) := rfl
  have hnumbers : ∀ name, Tabular.lastUpdate? batches.flatten Kind.gauge.name name ≠
      some (.gauge .nan) := by
    intro name
    by_cases hname : name = "b"
    · subst hname
      decide +kernel
    · have hnone : updates batches.flatten .gauge name = [] := by
        simp [updates_eq_nil_iff, batches, Metric.kind, Value.kind, hname]
      unfold Tabular.lastUpdate?
      rw [Kind.ofName?_name, Option.bind_some, hnone]
      exact (nomatch ·)
  refine ⟨hfresh, hmigrate, hnumbers, ?_⟩
  obtain ⟨s, hs, hvalue⟩ := (database_keeps_last_values hfresh hmigrate).2.1 batches hnumbers
  exact ⟨s, hs, (hvalue "counter" "a").trans (by decide +kernel)⟩

/-- The first counter with 54 binary digits that is odd comes back as its neighbour, and a gauge that is not
    a number makes the snapshot fail. -/
theorem database_rounds_large_counter :
    let c : Connection := (Connection.openMemory .empty).1
    let site := (c.migrate (Connection.openMemory .empty).2).2
    let large := (database c).add [⟨"a", .counter 9007199254740993⟩] site
    let broken := (database c).add [⟨"a", .gauge .nan⟩] site
    large.1 = .ok () ∧
      ((database c).snapshot large.2).map (·.value? "counter" "a") = .ok (some "9007199254740992") ∧
      (Value.counter 9007199254740993).text = "9007199254740993" ∧
      broken.1 = .ok () ∧
      ∃ e, (database c).snapshot broken.2 = .error e := by
  refine ⟨rfl, ?_, ?_, rfl, ?_⟩
  · rfl
  · decide +kernel
  · exact ⟨_, rfl⟩

end Backup

end Telemetry

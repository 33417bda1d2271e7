-- SUMMARY: Look-ups in a database against its snapshot: they agree on every key of a known type, and fail for the others.
import Mathlib
import Telemetry.Proofs.Backup.Changes
import Telemetry.Proofs.Backup.Transactions

/-!
# Look-ups in a database

A look-up asks for the row of one key and makes a metric of its number, while the snapshot takes the rows of
all keys and makes a text of each. Both see the content of the value column under the key, and a metric of a
known type has the text that the snapshot shows. Types that are not known can be restored into a database;
the snapshot shows their values, but no metric can be made of them.
-/

namespace Telemetry

namespace Database.Tables

/-- The row of a key has the content of the value column under the key. -/
theorem row?_eq {t : Tables} (h : t.Sound) (type name : String) :
    t.row? type name = (t.value? type name).map (⟨some type, some name, ·⟩) := by
  unfold row?
  cases hvalue : t.value? type name with
  | none =>
    refine List.find?_eq_none.mpr fun r hr hfor => ?_
    obtain ⟨type', name', v, rfl, hstored⟩ := (mem_rows_iff h).mp hr
    obtain ⟨htype, hname⟩ : type' = type ∧ name' = name := by simpa using hfor
    rw [htype, hname, hvalue] at hstored
    cases hstored
  | some v =>
    have hmem : (⟨some type, some name, v⟩ : Row) ∈ t.rows :=
      (mem_rows_iff h).mpr ⟨type, name, v, rfl, hvalue⟩
    obtain ⟨r, hfind⟩ := Option.isSome_iff_exists.mp (List.find?_isSome
      (p := fun r : Row => r.type == some type && r.name == some name) |>.mpr ⟨_, hmem, by simp⟩)
    obtain ⟨type', name', v', rfl, hstored⟩ := (mem_rows_iff h).mp (List.mem_of_find?_eq_some hfind)
    obtain ⟨htype, hname⟩ : type' = type ∧ name' = name := by simpa using List.find?_some hfind
    rw [htype, hname, hvalue] at hstored
    cases hstored
    rw [hfind, htype, hname]
    rfl

end Database.Tables

namespace Backup

open Database
open FileBackup (Change)

/-! ## Metrics of rows -/

namespace Tabular

/-- The value that a number stands for under a kind. -/
def valueOf : Kind → Binary64 → Value
  | .counter, x => .counter x.toInt64
  | .gauge, x => .gauge x

@[simp] theorem kind_valueOf (kind : Kind) (x : Binary64) : (valueOf kind x).kind = kind := by
  cases kind <;> rfl

/-- The value has the text that the snapshot shows for the number. -/
theorem text_valueOf (kind : Kind) (x : Binary64) :
    (valueOf kind x).text = valueText kind.name x := by
  cases kind <;> rfl

theorem metricOf_of_kind (kind : Kind) (name : String) (x : Binary64) :
    metricOf ⟨some kind.name, some name, some x⟩ = .ok ⟨name, valueOf kind x⟩ := by
  cases kind <;> rfl

theorem metricOf_of_unknown {type : String} (h : Kind.ofName? type = none) (name : String)
    (x : Binary64) : metricOf ⟨some type, some name, some x⟩ =
      .error ⟨["read record with type '" ++ type ++ "'"], .unknownType type⟩ := by
  simp only [metricOf, Row.complete, Kind.read, h, within_ok, ok_bind]
  rfl

/-- What is read of tables is complete, and shows the numbers of all keys. -/
theorem exists_value?_of_readRows {t : Tables} (h : t.Sound) {s : Snapshot}
    (hread : readRows t = .ok s) (type name : String) :
    (t.value? type name = none ∧ s.value? type name = none) ∨
      ∃ x, t.value? type name = some (some x) ∧
        s.value? type name = some (valueText type x) := by
  have hvalue := (value?_of_readRows h hread).2 type name
  cases hcell : t.value? type name with
  | none =>
    rw [hcell, Option.map_none, Option.map_eq_none_iff] at hvalue
    exact .inl ⟨rfl, hvalue⟩
  | some v =>
    rw [hcell, Option.map_some] at hvalue
    obtain ⟨text, htext, heq⟩ := Option.map_eq_some_iff.mp hvalue
    obtain ⟨x, rfl, rfl⟩ := Option.map_eq_some_iff.mp heq.symm
    exact .inr ⟨x, rfl, htext⟩

end Tabular

/-! ## Look-ups -/

theorem get_of_ready {c : Connection} {site : Site} {t : Tables} (h : c.Ready site t)
    (hsound : t.Sound) (type name : String) :
    (database c).get type name site =
      (t.value? type name).elim (fail (.notFound type name)) fun v =>
        Tabular.metricOf ⟨some type, some name, v⟩ := by
  have hrow : c.query site (·.row? type name) =
      .ok ((t.value? type name).map (⟨some type, some name, ·⟩)) := by
    rw [h.query, Tables.row?_eq hsound]
  unfold Backup.get Tabular.get Connection.relational
  simp only [hrow, within_ok, ok_bind]
  cases t.value? type name <;> rfl

/-- Under a known kind a look-up gives the metric of the text in the snapshot, or there is none. -/
theorem get_of_snapshot {c : Connection} {site : Site} {t : Tables} (h : c.Ready site t)
    (hsound : t.Sound) {s : Snapshot} (hread : (database c).snapshot site = .ok s) (kind : Kind)
    (name : String) :
    (s.value? kind.name name = none ∧
        (database c).get kind.name name site = fail (.notFound kind.name name)) ∨
      ∃ value : Value, value.kind = kind ∧ s.value? kind.name name = some value.text ∧
        (database c).get kind.name name site = .ok ⟨name, value⟩ := by
  rw [snapshot_of_tables h.isOpen h.tables] at hread
  rw [get_of_ready h hsound]
  rcases Tabular.exists_value?_of_readRows hsound hread kind.name name with
    ⟨hcell, hnone⟩ | ⟨x, hcell, hsome⟩
  · rw [hcell]
    exact .inl ⟨hnone, rfl⟩
  · rw [hcell]
    exact .inr ⟨Tabular.valueOf kind x, Tabular.kind_valueOf kind x,
      hsome.trans (congrArg some (Tabular.text_valueOf kind x).symm),
      Tabular.metricOf_of_kind kind name x⟩

/-- Values of a type that is not known are in the snapshot alone. -/
theorem get_of_unknown {c : Connection} {site : Site} {t : Tables} (h : c.Ready site t)
    (hsound : t.Sound) {s : Snapshot} (hread : (database c).snapshot site = .ok s)
    {type name : String} (htype : Kind.ofName? type = none)
    (hstored : (t.value? type name).isSome) :
    (s.value? type name).isSome ∧ (database c).get type name site =
      .error ⟨["read record with type '" ++ type ++ "'"], .unknownType type⟩ := by
  rw [snapshot_of_tables h.isOpen h.tables] at hread
  rw [get_of_ready h hsound]
  rcases Tabular.exists_value?_of_readRows hsound hread type name with ⟨hcell, -⟩ | ⟨x, hcell, hsome⟩
  · rw [hcell] at hstored
    cases hstored
  · rw [hcell, hsome]
    exact ⟨rfl, Tabular.metricOf_of_unknown htype name x⟩

/-! ## Calls -/

/-- The result of a call that changes a backup, and the site that it leaves. -/
def change (b : Backup) (site : Site) : Change → Outcome Unit × Site
  | .add batch => b.add batch site
  | .restore s => b.restore s site

/-- The site after calls, whatever came of each. -/
def changes (b : Backup) (calls : List Change) (site : Site) : Site :=
  calls.foldl (fun site call => (b.change site call).2) site

/-- The call brings a value for this type and name to a database. A snapshot with a value that is no number
    brings none. -/
def Stores (type name : String) : Change → Prop
  | .add batch => ∃ m ∈ batch, m.kind.name = type ∧ m.name = name
  | .restore s => (∀ e ∈ s.toEntries, ∃ x, readReal e.value = .ok x) ∧
      (s.value? type name).isSome

theorem isSome_lastUpdate?_iff {metrics : List Metric} {type name : String} :
    (Tabular.lastUpdate? metrics type name).isSome ↔
      ∃ m ∈ metrics, m.kind.name = type ∧ m.name = name := by
  induction metrics with
  | nil =>
    have hnone : Tabular.lastUpdate? [] type name = none := by
      unfold Tabular.lastUpdate?
      cases Kind.ofName? type <;> rfl
    simp [hnone]
  | cons m metrics ih =>
    rw [Tabular.lastUpdate?_cons, Option.isSome_or, Bool.or_eq_true, ih]
    simp only [List.mem_cons, exists_eq_or_imp, @eq_comm _ m.kind.name, @eq_comm _ m.name]
    split
    · rename_i hkey
      simp [hkey]
    · rename_i hkey
      simp [hkey]

theorem numbers_or_fault (entries : List Snapshot.Entry) :
    (∀ e ∈ entries, ∃ x, readReal e.value = .ok x) ∨
      ∃ e ∈ entries, ∃ fault, readReal e.value = .error fault := by
  by_cases h : ∃ e ∈ entries, ∃ fault, readReal e.value = .error fault
  · exact .inr h
  · refine .inl fun e he => ?_
    cases hread : readReal e.value with
    | ok x => exact ⟨x, rfl⟩
    | error fault => exact absurd ⟨e, he, fault, hread⟩ h

/-- After a call there are values under the keys from before and under those that it stores. -/
theorem change_of_ready {c : Connection} {site : Site} {t : Tables} (h : c.Ready site t)
    (hsound : t.Sound) (call : Change) :
    ∃ t', c.Ready ((database c).change site call).2 t' ∧ t'.Sound ∧
      ∀ type name, (t'.value? type name).isSome ↔
        Stores type name call ∨ (t.value? type name).isSome := by
  cases call with
  | add batch =>
    obtain ⟨site', hadd, hready⟩ := add_of_ready h batch
    refine ⟨_, ?_, hsound.foldl_upsert (batch.map Tabular.fullRowOf), fun type name => ?_⟩
    · change c.Ready ((database c).add batch site).2 _
      rwa [hadd]
    · rw [Tabular.value?_foldl_upsert hsound, Option.isSome_or, Option.isSome_map,
        Bool.or_eq_true, isSome_lastUpdate?_iff]
      rfl
  | restore s =>
    rcases numbers_or_fault s.toEntries with hnumbers | hfault
    · obtain ⟨log, site', hrestore, hready, hlast⟩ := restore_of_ready h hnumbers
      refine ⟨_, ?_, hsound.foldl_upsert log, fun type name => ?_⟩
      · change c.Ready ((database c).restore s site).2 _
        rwa [hrestore]
      · have hnumber : ((s.value? type name).bind Tabular.number?).isSome =
            (s.value? type name).isSome := by
          cases hfound : s.value? type name with
          | none => rfl
          | some text =>
            obtain ⟨x, hx⟩ := hnumbers ⟨type, name, text⟩ (Snapshot.mem_toEntries_iff.mpr hfound)
            rw [Option.bind_some, Tabular.number?_eq_some_iff.mpr hx]
            rfl
        rw [Tables.value?_foldl_upsert hsound, hlast, Option.isSome_or, Option.isSome_map, hnumber,
          Bool.or_eq_true]
        exact or_congr_left (and_iff_right hnumbers).symm
    · -- The first value that is no number stops the call before it has changed anything.
      obtain ⟨-, e, -, fault, -, -, -, hrestore⟩ :=
        Tabular.restore_of_fault c.relational site hfault
      refine ⟨t, ?_, hsound, fun type name => (or_iff_right ?_).symm⟩
      · change c.Ready (Tabular.restore c.relational s site).2 t
        rwa [hrestore]
      · rintro ⟨hnumbers, -⟩
        obtain ⟨e', he', fault', hfault'⟩ := hfault
        obtain ⟨x, hx⟩ := hnumbers e' he'
        rw [hx] at hfault'
        cases hfault'

/-- After any calls there are values exactly under the keys from before and those that a call has stored. -/
theorem changes_of_ready {c : Connection} {site : Site} {t : Tables} (h : c.Ready site t)
    (hsound : t.Sound) (calls : List Change) :
    ∃ t', c.Ready ((database c).changes calls site) t' ∧ t'.Sound ∧
      ∀ type name, (t'.value? type name).isSome ↔
        (∃ call ∈ calls, Stores type name call) ∨ (t.value? type name).isSome := by
  induction calls generalizing site t with
  | nil => exact ⟨t, h, hsound, by simp⟩
  | cons call calls ih =>
    obtain ⟨t₁, hready₁, hsound₁, hkeys₁⟩ := change_of_ready h hsound call
    obtain ⟨t', hready', hsound', hkeys'⟩ := ih hready₁ hsound₁
    refine ⟨t', hready', hsound', fun type name => ?_⟩
    rw [hkeys', hkeys₁, List.exists_mem_cons_iff, or_assoc, or_left_comm]

/-- After any additions and restorations, failed ones included, on tables that were just made: if the
    snapshot is read, then a look-up under a known kind finds a metric exactly where the snapshot has an
    entry, and the metric has the name, the kind and the text of the entry. A key of an unknown type that
    was stored is in the snapshot, but a look-up fails over its type. Whether or not the snapshot is read,
    there is no metric under a key that was never stored. -/
theorem database_lookup_agrees_with_snapshot {c : Connection} {before site : Site}
    (hfresh : c.tables? before = none) (hmigrate : c.migrate before = (.ok (), site))
    (calls : List Change) :
    let after := (database c).changes calls site
    (∀ s, (database c).snapshot after = .ok s →
      (∀ (kind : Kind) (name : String),
        ((∃ m, (database c).get kind.name name after = .ok m) ↔ (s.value? kind.name name).isSome) ∧
        ∀ m, (database c).get kind.name name after = .ok m →
          m.name = name ∧ m.kind = kind ∧ s.value? kind.name name = some m.value.text) ∧
      (∀ type name, (∀ kind : Kind, type ≠ kind.name) → (∃ call ∈ calls, Stores type name call) →
        (s.value? type name).isSome ∧ (database c).get type name after =
          .error ⟨["read record with type '" ++ type ++ "'"], .unknownType type⟩)) ∧
    (∀ type name, ¬ (∃ call ∈ calls, Stores type name call) →
      (database c).get type name after = fail (.notFound type name)) := by
  intro after
  obtain ⟨t, hready, hsound, hkeys⟩ := changes_of_ready
    (Connection.ready_of_migrate hfresh hmigrate) Tables.sound_empty calls
  simp only [Tables.value?_empty, Option.isSome_none, Bool.false_eq_true, or_false] at hkeys
  refine ⟨fun s hread => ⟨fun kind name => ?_, fun type name htype hstored => ?_⟩,
    fun type name hnever => ?_⟩
  · rcases get_of_snapshot hready hsound hread kind name with
      ⟨hnone, hget⟩ | ⟨value, hkind, hsome, hget⟩
    · rw [hget, hnone]
      exact ⟨by simp [fail], fun m hm => nomatch hm⟩
    · rw [hget, hsome]
      refine ⟨by simp, fun m hm => ?_⟩
      cases hm
      exact ⟨rfl, hkind, rfl⟩
  · have hunknown : Kind.ofName? type = none := by
      cases hof : Kind.ofName? type with
      | none => rfl
      | some kind => exact absurd (Kind.ofName?_eq_some_iff.mp hof) (htype kind)
    exact get_of_unknown hready hsound hread hunknown ((hkeys type name).mpr hstored)
  · have hnone : t.value? type name = none := by
      rw [← Option.not_isSome_iff_eq_none, hkeys]
      exact hnever
    rw [get_of_ready hready hsound, hnone, Option.elim_none]

/-- A histogram comes with a restored snapshot, and a snapshot with a value that is no number is refused. -/
theorem database_lookup_agrees_with_snapshot_histogram :
    let c := (Connection.openMemory .empty).1
    let before := (Connection.openMemory .empty).2
    let site := (c.migrate before).2
    let calls : List Change :=
      [.add [⟨"a", .counter 5⟩, ⟨"a", .gauge (.ofNat 1)⟩],
        .restore (.ofEntries [⟨"counter", "a", "7"⟩, ⟨"histogram", "h", "2"⟩]),
        .restore (.ofEntries [⟨"gauge", "b", "x"⟩])]
    let after := (database c).changes calls site
    c.tables? before = none ∧ c.migrate before = (.ok (), site) ∧
      (∃ s, (database c).snapshot after = .ok s ∧ (s.value? "histogram" "h").isSome) ∧
      (∀ kind : Kind, "histogram" ≠ kind.name) ∧
      (database c).get "histogram" "h" after =
        .error ⟨["read record with type '" ++ "histogram" ++ "'"], .unknownType "histogram"⟩ ∧
      (database c).get "gauge" "b" after = fail (.notFound "gauge" "b") := by
  intro c before site calls after
  have hfresh : c.tables? before = none := rfl
  have hmigrate : c.migrate before = (.ok (), site) := rfl
  have htype : ∀ kind : Kind, "histogram" ≠ kind.name := by
    intro kind
    cases kind <;> decide
  have hread : ((database c).snapshot after).map (fun _ => ()) = .ok () := by
    decide +kernel
  have hentries : (Snapshot.ofEntries [⟨"counter", "a", "7"⟩, ⟨"histogram", "h", "2"⟩]).toEntries =
      [⟨"counter", "a", "7"⟩, ⟨"histogram", "h", "2"⟩] := by
    decide +kernel
  have hseven : readReal "7" = .ok (.ofNat 7) := by
    decide +kernel
  have htwo : readReal "2" = .ok (.ofNat 2) := by
    decide +kernel
  have hstored : ∃ call ∈ calls, Stores "histogram" "h" call := by
    refine ⟨_, List.mem_cons_of_mem _ List.mem_cons_self, ?_, by decide +kernel⟩
    simp [hentries, hseven, htwo]
  have hnever : ¬ ∃ call ∈ calls, Stores "gauge" "b" call := by
    have hrefused : (Snapshot.ofEntries [⟨"gauge", "b", "x"⟩]).toEntries = [⟨"gauge", "b", "x"⟩] := by
      decide +kernel
    have hletter : readReal "x" = .error .invalid := by
      decide +kernel
    have hother : (Snapshot.ofEntries [⟨"counter", "a", "7"⟩, ⟨"histogram", "h", "2"⟩]).value?
        "gauge" "b" = none := by
      decide +kernel
    simp [calls, Stores, hrefused, hletter, hother]
  obtain ⟨hagree, hmissing⟩ := database_lookup_agrees_with_snapshot hfresh hmigrate calls
  cases hsnapshot : (database c).snapshot after with
  | error e =>
    rw [hsnapshot] at hread
    cases hread
  | ok s =>
    obtain ⟨hsome, hget⟩ := (hagree s hsnapshot).2 "histogram" "h" htype hstored
    exact ⟨hfresh, hmigrate, ⟨s, rfl, hsome⟩, htype, hget, hmissing "gauge" "b" hnever⟩

end Backup

end Telemetry

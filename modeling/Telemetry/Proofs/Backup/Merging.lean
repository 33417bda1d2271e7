-- SUMMARY: Restoring into a database: the snapshot is laid over the rows that are there, and when it replaces them.
import Mathlib
import Telemetry.Proofs.Backup.Retention
import Telemetry.Proofs.Database.Listing

/-!
# Merging

A database is restored by writing the entries of the snapshot as rows, and no row is ever taken away. So
keys that are not in the snapshot keep what they had. The snapshot takes the place of everything exactly if
it has all the keys from before, and even then it is not read back if one of its values is not a number.
-/

namespace Telemetry.Backup

open Database

namespace Tabular

/-! ## Rows of entries -/

/-- The number that a text stands for. -/
def number? (text : String) : Option Binary64 :=
  (readReal text).toOption

theorem number?_eq_some_iff {text : String} {x : Binary64} :
    number? text = some x ↔ readReal text = .ok x := by
  unfold number?
  cases readReal text <;> simp [Except.toOption]

/-- Entries with numbers become rows, of which the last for a key has the number of the last entry. -/
theorem exists_mapM_rowOfEntry {entries : List Snapshot.Entry}
    (h : ∀ e ∈ entries, ∃ x, readReal e.value = .ok x) :
    ∃ log : List FullRow, entries.mapM rowOfEntry = .ok (log.map .ofFull) ∧
      (log = [] ↔ entries = []) ∧
      ∀ type name, lastWritten? log (type, name) =
        (Snapshot.last? entries type name).bind number? := by
  induction entries with
  | nil => exact ⟨[], rfl, by simp, fun _ _ => rfl⟩
  | cons e entries ih =>
    obtain ⟨x, hx⟩ := h e List.mem_cons_self
    obtain ⟨log, hrows, -, hlast⟩ := ih fun e he => h e (List.mem_cons_of_mem _ he)
    have hrow : rowOfEntry e = .ok (.ofFull ⟨e.type, e.name, x⟩) := by
      simp only [rowOfEntry, hx]
    refine ⟨⟨e.type, e.name, x⟩ :: log, mapM_cons_eq_ok_iff.mpr ⟨_, _, hrow, hrows, rfl⟩,
      by simp, ?_⟩
    intro type name
    rw [lastWritten?_cons, Snapshot.last?_cons, hlast]
    simp only [FullRow.key, Prod.mk.injEq]
    cases hfound : Snapshot.last? entries type name with
    | some text =>
      -- The text that is found is one of those that stand for numbers.
      have hmem := Snapshot.mem_of_last?_eq_some hfound
      obtain ⟨y, hy⟩ := h _ (List.mem_cons_of_mem _ hmem)
      have hnumber : number? text = some y := number?_eq_some_iff.mpr hy
      simp [hnumber]
    | none =>
      have hnumber : number? e.value = some x := number?_eq_some_iff.mpr hx
      split <;> simp [hnumber]

theorem storedReal_eq_none_iff {x : Binary64} : storedReal x = none ↔ x = .nan := by
  unfold storedReal
  cases x with
  | nan => simp [Binary64.isNan]
  | signed negative place => simp [Binary64.isNan]

/-- What the column keeps of a text is absent only if the text is not-a-number. -/
theorem number?_bind_storedReal_eq_none_iff {text : String}
    (h : ∃ x, readReal text = .ok x) :
    (number? text).bind storedReal = none ↔ readReal text = .ok .nan := by
  obtain ⟨x, hx⟩ := h
  rw [number?_eq_some_iff.mpr hx, hx, Option.bind_some, storedReal_eq_none_iff, Except.ok.injEq]

/-! ## Keys that are read -/

/-- Tables that are read have no absent value, and the snapshot has their keys. -/
theorem keys_of_readRows {t : Tables} (h : t.Sound) {s : Snapshot} (hread : readRows t = .ok s) :
    (∀ type name, t.value? type name ≠ some none) ∧
      ∀ type name, (s.value? type name).isSome = (t.value? type name).isSome := by
  obtain ⟨-, hvalues⟩ := value?_of_readRows h hread
  constructor
  · intro type name hnone
    have hvalue := hvalues type name
    rw [hnone] at hvalue
    obtain ⟨text, -, htext⟩ := Option.map_eq_some_iff.mp hvalue
    cases htext
  · intro type name
    simpa using congrArg Option.isSome (hvalues type name)

/-- Tables are read with the keys of a snapshot exactly if these are their keys and no value is absent. -/
theorem readRows_keys_iff {t : Tables} (h : t.Sound) {s : Snapshot} :
    (∃ s', readRows t = .ok s' ∧
        ∀ type name, (s'.value? type name).isSome = (s.value? type name).isSome) ↔
      (∀ type name, t.value? type name ≠ some none) ∧
        ∀ type name, (t.value? type name).isSome = (s.value? type name).isSome := by
  constructor
  · rintro ⟨s', hread, hkeys⟩
    obtain ⟨hpresent, hsame⟩ := keys_of_readRows h hread
    exact ⟨hpresent, fun type name => (hsame type name).symm.trans (hkeys type name)⟩
  · rintro ⟨hpresent, hkeys⟩
    obtain ⟨s', hread⟩ := exists_readRows h hpresent
    obtain ⟨-, hsame⟩ := keys_of_readRows h hread
    exact ⟨s', hread, fun type name => (hsame type name).trans (hkeys type name)⟩

end Tabular

/-! ## Restoring -/

/-- Entries with numbers are restored through a ready connection, as the rows of a log. -/
theorem restore_of_ready {c : Connection} {site : Site} {t : Tables} (h : c.Ready site t)
    {s : Snapshot} (hnumbers : ∀ e ∈ s.toEntries, ∃ x, readReal e.value = .ok x) :
    ∃ (log : List FullRow) (site' : Site), (database c).restore s site = (.ok (), site') ∧
      c.Ready site' (log.foldl Tables.upsert t) ∧
      ∀ type name, lastWritten? log (type, name) = (s.value? type name).bind Tabular.number? := by
  obtain ⟨log, hrows, -, hlast⟩ := Tabular.exists_mapM_rowOfEntry hnumbers
  obtain ⟨site', hupdate, hready⟩ := h.update log
  refine ⟨log, site', ?_, hready, fun type name => ?_⟩
  · change Tabular.restore c.relational s site = _
    unfold Tabular.restore Connection.relational
    simp only [hrows, hupdate, within_ok]
  · rw [hlast, Snapshot.last?_toEntries]

/-- Complete rows are written through an open connection that may write, or if there are none. -/
theorem update_ofFull_eq_ok_iff {c : Connection} {site : Site} {t : Tables}
    (htables : c.tables? site = some t) (rows : List FullRow) :
    (c.update (rows.map .ofFull) site).1 = .ok () ↔
      c.isOpen = true ∧ (c.readOnly = false ∨ rows = []) := by
  cases hopen : c.isOpen with
  | false => simp [Connection.update, hopen, Connection.refuse, fail]
  | true =>
    cases hreadOnly : c.readOnly with
    | false =>
      obtain ⟨site', hupdate, -⟩ :=
        (⟨hopen, hreadOnly, htables⟩ : c.Ready site t).update rows
      simp [hupdate]
    | true =>
      cases rows with
      | nil => simp [Connection.update, hopen]
      | cons r rows =>
        simp [Connection.update, hopen, htables, hreadOnly, Row.ofFull, Row.complete,
          Connection.refuse, fail]

/-- Restoring a snapshot of numbers succeeds through every open connection that may write. Then the columns
    have what they keep of the numbers under the keys of the snapshot, and their old contents under all
    other keys. So exactly the keys of the snapshot are read if all keys from before are among them and none
    of its values is not-a-number. -/
theorem database_restore_merges {c : Connection} {site : Site} {t : Tables} (hsound : t.Sound)
    (htables : c.tables? site = some t) {s : Snapshot}
    (hnumbers : ∀ e ∈ s.toEntries, ∃ x, readReal e.value = .ok x) :
    let after := (database c).restore s site
    (after.1 = .ok () ↔ c.isOpen = true ∧ (c.readOnly = false ∨ s.toEntries = [])) ∧
    (after.1 = .ok () →
      (∃ t', c.tables? after.2 = some t' ∧ ∀ type name, t'.value? type name =
        ((s.value? type name).map fun text => (Tabular.number? text).bind storedReal).or
          (t.value? type name)) ∧
      ((∃ s', (database c).snapshot after.2 = .ok s' ∧
          ∀ type name, (s'.value? type name).isSome = (s.value? type name).isSome) ↔
        (∀ type name, (t.value? type name).isSome → (s.value? type name).isSome) ∧
          ∀ e ∈ s.toEntries, readReal e.value ≠ .ok .nan)) := by
  intro after
  obtain ⟨log, hrows, hnil, hlast⟩ := Tabular.exists_mapM_rowOfEntry hnumbers
  have hafter : after = (within "update records" (c.update (log.map .ofFull) site).1,
      (c.update (log.map .ofFull) site).2) := by
    change Tabular.restore c.relational s site = _
    unfold Tabular.restore
    rw [hrows]
    rfl
  rw [hafter, within_eq_ok_iff, update_ofFull_eq_ok_iff htables, hnil]
  refine ⟨Iff.rfl, fun hok => ?_⟩
  have hupdate := (update_ofFull_eq_ok_iff htables log).mpr (by rwa [hnil])
  have htables' := Connection.tables?_of_update htables (Prod.ext hupdate rfl)
  have hvalue : ∀ type name, (log.foldl Tables.upsert t).value? type name =
      ((s.value? type name).map fun text => (Tabular.number? text).bind storedReal).or
        (t.value? type name) := by
    intro type name
    rw [Tables.value?_foldl_upsert hsound, hlast, Snapshot.last?_toEntries]
    cases hfound : s.value? type name with
    | none => rfl
    | some text =>
      have he : (⟨type, name, text⟩ : Snapshot.Entry) ∈ s.toEntries :=
        Snapshot.mem_toEntries_iff.mpr hfound
      obtain ⟨x, hx⟩ := hnumbers _ he
      have hnumber : Tabular.number? text = some x := Tabular.number?_eq_some_iff.mpr hx
      simp [hnumber]
  refine ⟨⟨_, htables', hvalue⟩, ?_⟩
  rw [snapshot_of_tables hok.1 htables', Tabular.readRows_keys_iff (hsound.foldl_upsert log)]
  simp only [hvalue, Option.isSome_or, Option.isSome_map, Bool.or_eq_left_iff_imp]
  rw [and_comm]
  refine and_congr_right fun hkeys => ⟨fun hpresent e he hnan => ?_, fun hnumber type name => ?_⟩
  · -- The value of the entry would be absent under its key.
    have hfound := Snapshot.mem_toEntries_iff.mp he
    apply hpresent e.type e.name
    rw [hfound, Option.map_some, Option.some_or,
      (Tabular.number?_bind_storedReal_eq_none_iff (hnumbers e he)).mpr hnan]
  · cases hfound : s.value? type name with
    | none =>
      have hold : t.value? type name = none := by
        simpa [hfound] using hkeys type name
      rw [hold]
      exact (nomatch ·)
    | some text =>
      have he : (⟨type, name, text⟩ : Snapshot.Entry) ∈ s.toEntries :=
        Snapshot.mem_toEntries_iff.mpr hfound
      rw [Option.map_some, Option.some_or, ne_eq, Option.some_inj,
        Tabular.number?_bind_storedReal_eq_none_iff (hnumbers _ he)]
      exact hnumber _ he

/-- A counter that stands under a key of the snapshot is replaced, and a gauge is new. -/
theorem database_restore_replaces_same_key :
    let c := (Connection.openMemory .empty).1
    let before := (Connection.openMemory .empty).2
    let stored := ((database c).add [⟨"a", .counter 5⟩] (c.migrate before).2).2
    let s := Snapshot.ofEntries [⟨"counter", "a", "7"⟩, ⟨"gauge", "b", "1"⟩]
    let after := (database c).restore s stored
    after.1 = .ok () ∧ ∃ s', (database c).snapshot after.2 = .ok s' ∧
      ∀ type name, (s'.value? type name).isSome = (s.value? type name).isSome := by
  intro c before stored s after
  have hfresh : c.tables? before = none := rfl
  have hmigrate : c.migrate before = (.ok (), (c.migrate before).2) := rfl
  obtain ⟨site', hadd, hready⟩ :=
    add_of_ready (Connection.ready_of_migrate hfresh hmigrate) [⟨"a", .counter 5⟩]
  have hstored : stored = site' := congrArg Prod.snd hadd
  have hsound := Tables.sound_empty.foldl_upsert ([⟨"a", .counter 5⟩].map Tabular.fullRowOf)
  have hentries : s.toEntries = [⟨"counter", "a", "7"⟩, ⟨"gauge", "b", "1"⟩] := by
    decide +kernel
  have hseven : readReal "7" = .ok (.ofNat 7) := by
    decide +kernel
  have hone : readReal "1" = .ok (.ofNat 1) := by
    decide +kernel
  have hnumbers : ∀ e ∈ s.toEntries, ∃ x, readReal e.value = .ok x := by
    simp [hentries, hseven, hone]
  obtain ⟨hok, hread⟩ := database_restore_merges hsound (hstored ▸ hready.tables) hnumbers
  have hafter : after.1 = .ok () := hok.mpr ⟨rfl, .inl rfl⟩
  refine ⟨hafter, (hread hafter).2.mpr ⟨?_, ?_⟩⟩
  · intro type name hstale
    change ((Tables.empty.upsert _).value? type name).isSome = true at hstale
    rw [Tables.value?_upsert Tables.sound_empty] at hstale
    split at hstale
    · rename_i hkey
      rw [hkey.1, hkey.2]
      decide +kernel
    · cases hstale
  · have hreal : ∀ n ∈ [1, 7], Binary64.ofNat n ≠ .nan := by
      decide +kernel
    simp [hentries, hseven, hone, hreal]

/-- A counter that was stored before outlives a restored snapshot without it. -/
theorem database_restore_keeps_stale_key :
    let c := (Connection.openMemory .empty).1
    let site := (c.migrate (Connection.openMemory .empty).2).2
    let stored := ((database c).add [⟨"a", .counter 5⟩] site).2
    let s := Snapshot.ofEntries [⟨"gauge", "b", "1"⟩]
    let after := (database c).restore s stored
    (∀ e ∈ s.toEntries, ∃ x, readReal e.value = .ok x) ∧ after.1 = .ok () ∧
      s.value? "counter" "a" = none ∧
      ((database c).snapshot after.2).map (·.value? "counter" "a") = .ok (some "5") := by
  intro c site stored s after
  have hentries : s.toEntries = [⟨"gauge", "b", "1"⟩] := by
    decide +kernel
  refine ⟨?_, ?_, ?_, ?_⟩
  · rw [hentries]
    intro e he
    rw [List.mem_singleton.mp he]
    exact ⟨.ofNat 1, by decide +kernel⟩
  · decide +kernel
  · decide +kernel
  · decide +kernel

end Telemetry.Backup

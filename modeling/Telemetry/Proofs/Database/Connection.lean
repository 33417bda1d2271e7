-- SUMMARY: Laws of connections: which site an operation leaves behind, and that the tables of all databases stay sound.
import Mathlib
import Telemetry.Database.Connection
import Telemetry.Proofs.Database.Tables
import Telemetry.Proofs.SortedMap

/-!
# Laws of connections

A connection reaches the tables of one database. Whatever is done through it, and whether or not it
succeeds, the tables of every database at the site keep unique numbers and keys.
-/

namespace Telemetry

open Database

/-! ## Sites -/

/-- The tables of all databases at the site are sound. -/
def Site.Sound (site : Site) : Prop :=
  ∀ key t, site.databases.find? key = some (some t) → t.Sound

namespace Site

theorem sound_empty : empty.Sound := by
  intro key t h
  cases h

/-- A database with sound tables, or without tables, may take any place. -/
theorem Sound.insert {site : Site} (h : site.Sound) (key : String) {tables : Option Tables}
    (htables : ∀ t ∈ tables, t.Sound) :
    ({ site with databases := site.databases.insert key tables } : Site).Sound := by
  intro other t hfind
  rw [SortedMap.find?_insert] at hfind
  split at hfind
  · exact htables t (Option.some.inj hfind)
  · exact h other t hfind

end Site

namespace Database.Connection

/-! ## The tables behind a connection -/

@[simp] theorem tables?_setTables (c : Connection) (tables : Option Tables) (site : Site) :
    c.tables? (c.setTables tables site) = tables := by
  unfold tables? setTables
  dsimp only
  rw [SortedMap.find?_insert, if_pos rfl]
  rfl

/-- Putting the tables back that are there changes nothing. -/
theorem setTables_eq_self {c : Connection} {site : Site} {t : Tables}
    (h : c.tables? site = some t) : c.setTables (some t) site = site := by
  have hfind : site.databases.find? c.key = some (some t) := Option.join_eq_some_iff.mp h
  unfold setTables
  rw [SortedMap.insert_eq_self hfind]

/-- An open connection that may write, and the tables behind it. -/
structure Ready (c : Connection) (site : Site) (t : Tables) : Prop where
  isOpen : c.isOpen = true
  writable : c.readOnly = false
  tables : c.tables? site = some t

/-- Tables that were made are ready and empty. -/
theorem ready_of_migrate {c : Connection} {site site' : Site} (hfresh : c.tables? site = none)
    (hmigrate : c.migrate site = (.ok (), site')) : c.Ready site' .empty := by
  unfold migrate at hmigrate
  rw [hfresh] at hmigrate
  cases hopen : c.isOpen with
  | false =>
    rw [hopen] at hmigrate
    cases hmigrate
  | true =>
    cases hreadOnly : c.readOnly with
    | true =>
      rw [hopen, hreadOnly] at hmigrate
      cases hmigrate
    | false =>
      rw [hopen, hreadOnly] at hmigrate
      obtain rfl : c.setTables (some .empty) site = site' := (Prod.ext_iff.mp hmigrate).2
      exact ⟨hopen, hreadOnly, tables?_setTables c _ site⟩

/-- A ready connection stays ready, and only rows that are not complete make an update fail. -/
theorem Ready.updateAny {c : Connection} {site : Site} {t : Tables} (h : c.Ready site t)
    (rows : List Row) :
    (c.update rows site).1 = (rows.mapM Row.complete).map (fun _ => ()) ∧
      c.Ready (c.update rows site).2 ((Tables.writtenRows rows).foldl Tables.upsert t) := by
  unfold Connection.update
  rw [h.isOpen, h.writable, h.tables]
  cases rows with
  | nil => exact ⟨rfl, h⟩
  | cons r rows =>
    have hupdate := Tables.update_eq t (r :: rows)
    simp only [hupdate]
    exact ⟨rfl, h.isOpen, h.writable, tables?_setTables c _ site⟩

/-- A ready connection writes all rows that are complete. -/
theorem Ready.update {c : Connection} {site : Site} {t : Tables} (h : c.Ready site t)
    (rows : List FullRow) :
    ∃ site', c.update (rows.map .ofFull) site = (.ok (), site') ∧
      c.Ready site' (rows.foldl Tables.upsert t) := by
  obtain ⟨hresult, hready⟩ := h.updateAny (rows.map .ofFull)
  rw [Tables.mapM_complete_map_ofFull] at hresult
  rw [Tables.writtenRows_map_ofFull] at hready
  exact ⟨_, Prod.ext hresult rfl, hready⟩

/-- Complete rows that were written are in the tables. -/
theorem tables?_of_update {c : Connection} {site site' : Site} {t : Tables} {rows : List FullRow}
    (htables : c.tables? site = some t) (h : c.update (rows.map .ofFull) site = (.ok (), site')) :
    c.tables? site' = some (rows.foldl Tables.upsert t) := by
  cases hopen : c.isOpen with
  | false =>
    unfold Connection.update at h
    rw [hopen] at h
    cases h
  | true =>
    cases hreadOnly : c.readOnly with
    | false =>
      obtain ⟨site₁, hupdate, hready⟩ :=
        (⟨hopen, hreadOnly, htables⟩ : c.Ready site t).update rows
      rw [hupdate] at h
      cases h
      exact hready.tables
    | true =>
      unfold Connection.update at h
      rw [hopen, htables, hreadOnly] at h
      cases rows with
      | nil =>
        cases h
        exact htables
      | cons r rows => cases h

/-- Writing rows changes nothing if it fails. -/
theorem update_error {c : Connection} {rows : List Row} {site site' : Site}
    {e : Error} (h : c.update rows site = (.error e, site')) : site' = site := by
  unfold Connection.update at h
  split at h
  · cases h
    rfl
  · split at h
    case h_1 => cases h
    case h_3 => exact (Prod.ext_iff.mp h).2.symm
    case h_2 =>
      rename_i tables _ htables _
      generalize hupdate : tables.update _ = updated at h
      obtain ⟨result, after⟩ := updated
      cases h
      rw [Tables.update_error hupdate, setTables_eq_self htables]

/-! ## Soundness -/

theorem sound_tables? {c : Connection} {site : Site} (h : site.Sound) {t : Tables}
    (htables : c.tables? site = some t) : t.Sound :=
  h c.key t (Option.join_eq_some_iff.mp htables)

theorem sound_openMemory {site : Site} (h : site.Sound) : (openMemory site).2.Sound :=
  h.insert memoryKey nofun

theorem sound_migrate {site : Site} (h : site.Sound) (c : Connection) :
    (c.migrate site).2.Sound := by
  unfold migrate
  split
  · exact h
  · split
    · exact h
    · split
      · exact h
      · refine h.insert c.key fun t ht => ?_
        cases ht
        exact Tables.sound_empty

theorem sound_update {site : Site} (h : site.Sound) (c : Connection) (rows : List Row) :
    (c.update rows site).2.Sound := by
  unfold Connection.update
  split
  · exact h
  · split
    · exact h
    · rename_i htables _
      refine h.insert c.key fun t ht => ?_
      cases ht
      exact (sound_tables? h htables).update _
    · exact h

end Database.Connection

end Telemetry

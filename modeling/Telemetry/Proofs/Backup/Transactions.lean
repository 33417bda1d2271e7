-- SUMMARY: Transactions: rows are written one after the other, and one that lacks a part takes back all that were written before it.
import Mathlib
import Telemetry.Proofs.Backup.Merging

/-!
# Transactions

An update writes its rows one after the other into a working copy of the tables. The first row that lacks a
part ends it: the copy is given up with the types and rows that were made in it, and the tables are those
from before. Otherwise the copy takes their place. A snapshot is restored in one transaction too, but all
its values are read before the transaction begins.
-/

namespace Telemetry

namespace Database

/-! ## Rows that lack a part -/

namespace Row

/-- What a row lacks first: its type before its name, and its name before its value. -/
def missing? (r : Row) : Option Cause :=
  if r.type.isNone then some .recordType
  else if r.name.isNone then some .recordName
  else if r.value.isNone then some .recordValue
  else none

theorem complete_of_missing {r : Row} {cause : Cause} (h : r.missing? = some cause) :
    r.complete = fail cause := by
  obtain ⟨_ | type, _ | name, _ | value⟩ := r <;> cases h <;> rfl

theorem exists_ofFull_of_missing {r : Row} (h : r.missing? = none) : ∃ full, r = .ofFull full := by
  obtain ⟨_ | type, _ | name, _ | value⟩ := r
  case some.some.some => exact ⟨⟨type, name, value⟩, rfl⟩
  all_goals cases h

@[simp] theorem complete_ofFull (r : FullRow) : (ofFull r).complete = .ok r := rfl

theorem exists_map_ofFull {rows : List Row} (h : ∀ r ∈ rows, r.missing? = none) :
    ∃ full : List FullRow, rows = full.map .ofFull := by
  induction rows with
  | nil => exact ⟨[], rfl⟩
  | cons r rows ih =>
    obtain ⟨first, rfl⟩ := exists_ofFull_of_missing (h r List.mem_cons_self)
    obtain ⟨others, rfl⟩ := ih fun r hr => h r (List.mem_cons_of_mem _ hr)
    exact ⟨first :: others, rfl⟩

/-- Rows of which one lacks a part are cut at the first that does. -/
theorem exists_first_missing {rows : List Row} {cause : Cause}
    (h : rows.findSome? missing? = some cause) :
    ∃ (written : List FullRow) (r : Row) (rest : List Row),
      rows = written.map .ofFull ++ r :: rest ∧ r.missing? = some cause := by
  obtain ⟨before, r, rest, rfl, hr, hbefore⟩ := List.findSome?_eq_some_iff.mp h
  obtain ⟨written, rfl⟩ := exists_map_ofFull hbefore
  exact ⟨written, r, rest, rfl, hr⟩

end Row

/-! ## Working copies -/

/-- The tables as they were when a transaction began, and the copy that it writes to. -/
structure Transaction where
  before : Tables
  working : Tables

namespace Transaction

def start (t : Tables) : Transaction := ⟨t, t⟩

/-- Write one row, which must have all its parts. -/
def write (x : Transaction) (r : Row) : Outcome Unit × Transaction :=
  match r.complete with
  | .ok full => (.ok (), { x with working := x.working.upsert full })
  | .error e => (.error e, x)

/-- Write rows up to the first that lacks a part. -/
def writeAll (x : Transaction) : List Row → Outcome Unit × Transaction
  | [] => (.ok (), x)
  | r :: rest =>
    match x.write r with
    | (.ok (), x) => x.writeAll rest
    | (.error e, x) => (.error e, x)

/-- The tables that a transaction leaves: its copy, or those from before if a row has failed. -/
def finish : Outcome Unit × Transaction → Outcome Unit × Tables
  | (.ok (), x) => (.ok (), x.working)
  | (.error e, x) => (.error e, x.before)

/-- Rows with all their parts are written one after the other. -/
theorem writeAll_append (x : Transaction) (written : List FullRow) (rows : List Row) :
    x.writeAll (written.map .ofFull ++ rows) =
      writeAll { x with working := written.foldl Tables.upsert x.working } rows := by
  induction written generalizing x with
  | nil => rfl
  | cons r written ih =>
    simp only [List.map_cons, List.cons_append, writeAll, write, Row.complete_ofFull, ih,
      List.foldl_cons]

theorem writeAll_of_missing (x : Transaction) {r : Row} {cause : Cause}
    (h : r.missing? = some cause) (rest : List Row) :
    x.writeAll (r :: rest) = (fail cause, x) := by
  simp only [writeAll, write, Row.complete_of_missing h, fail]

/-- An update leaves what its transaction leaves. -/
theorem update_eq_finish (t : Tables) (rows : List Row) :
    t.update rows = finish ((start t).writeAll rows) := by
  have hfinish : ∀ x : Transaction, finish (x.writeAll rows) =
      ((x.working.upsertAll rows).map fun _ => (),
        (x.working.upsertAll rows).toOption.getD x.before) := by
    induction rows with
    | nil => exact fun _ => rfl
    | cons r rows ih =>
      intro x
      unfold writeAll write Tables.upsertAll
      cases hcomplete : r.complete with
      | error e => rfl
      | ok full => exact ih _
  rw [hfinish]
  unfold Tables.update start
  cases t.upsertAll rows <;> rfl

end Transaction

namespace Connection

/-- An update through a ready connection is a transaction on the tables behind it. -/
theorem Ready.update_eq_finish {c : Connection} {site : Site} {t : Tables} (h : c.Ready site t)
    (rows : List Row) :
    c.update rows site =
      ((Transaction.finish ((Transaction.start t).writeAll rows)).1,
        c.setTables (some (Transaction.finish ((Transaction.start t).writeAll rows)).2) site) := by
  rw [← Transaction.update_eq_finish]
  unfold Connection.update
  rw [h.isOpen, h.writable, h.tables]
  cases rows with
  | nil => exact congrArg (Prod.mk _) (setTables_eq_self h.tables).symm
  | cons r rows => rfl

end Connection

end Database

/-! ## Restoring -/

namespace Backup

open Database

namespace Tabular

theorem rowOfEntry_of_fault {e : Snapshot.Entry} {fault : RealFault}
    (h : readReal e.value = .error fault) :
    rowOfEntry e = .error ⟨["parse metric value"],
      .parsing (Text.quote e.value ++ ": " ++ fault.message)⟩ := by
  unfold rowOfEntry
  rw [h]
  rfl

theorem exists_readReal_of_rowOfEntry {e : Snapshot.Entry} {row : Row}
    (h : rowOfEntry e = .ok row) : ∃ x, readReal e.value = .ok x := by
  cases hread : readReal e.value with
  | ok x => exact ⟨x, rfl⟩
  | error fault =>
    rw [rowOfEntry_of_fault hread] at h
    cases h

/-- A snapshot with a value that is no number is not restored, for the first such value. -/
theorem restore_of_fault {σ : Type} (db : Relational σ) (state : σ) {s : Snapshot}
    (h : ∃ e ∈ s.toEntries, ∃ fault, readReal e.value = .error fault) :
    ∃ before e after fault, s.toEntries = before ++ e :: after ∧
      (∀ e' ∈ before, ∃ x, readReal e'.value = .ok x) ∧ readReal e.value = .error fault ∧
      restore db s state = (.error ⟨["parse metric value"],
        .parsing (Text.quote e.value ++ ": " ++ fault.message)⟩, state) := by
  obtain ⟨e₀, he₀, fault₀, hfault₀⟩ := h
  obtain ⟨before, e, after, error, hentries, hbefore, herror⟩ :=
    exists_first_error ⟨e₀, he₀, _, rowOfEntry_of_fault hfault₀⟩
  have hnumbers : ∀ e' ∈ before, ∃ x, readReal e'.value = .ok x := by
    intro e' he'
    obtain ⟨row, hrow⟩ := hbefore e' he'
    exact exists_readReal_of_rowOfEntry hrow
  cases hread : readReal e.value with
  | ok x =>
    simp only [rowOfEntry, hread] at herror
    cases herror
  | error fault =>
    refine ⟨before, e, after, fault, hentries, hnumbers, hread, ?_⟩
    unfold restore
    rw [hentries, mapM_eq_error_of_first hbefore (rowOfEntry_of_fault hread)]

end Tabular

/-- Through a connection that is ready, an update of which some row lacks a part fails with what the first
    such row lacks: its transaction has written all rows before this one, and yet the whole site is as it
    was. An update without such a row succeeds and leaves its rows written one after the other, so under
    each key stands what is kept of its last number. And a snapshot with a value that is no number is not
    restored, for the first such value, and leaves the site as it was. -/
theorem database_update_all_or_nothing {c : Connection} {site : Site} {t : Tables}
    (h : c.Ready site t) :
    (∀ rows cause, rows.findSome? Row.missing? = some cause →
      (∃ (written : List FullRow) (r : Row) (rest : List Row),
        rows = written.map .ofFull ++ r :: rest ∧ r.missing? = some cause ∧
        (Transaction.start t).writeAll rows =
          (fail cause, ⟨t, written.foldl Tables.upsert t⟩)) ∧
      c.update rows site = (fail cause, site)) ∧
    (∀ rows, rows.findSome? Row.missing? = none →
      ∃ written : List FullRow, rows = written.map .ofFull ∧
        c.update rows site =
          (.ok (), c.setTables (some (written.foldl Tables.upsert t)) site) ∧
        (t.Sound → ∀ type name, (written.foldl Tables.upsert t).value? type name =
          ((lastWritten? written (type, name)).map storedReal).or (t.value? type name))) ∧
    (∀ s : Snapshot, (∃ e ∈ s.toEntries, ∃ fault, readReal e.value = .error fault) →
      ∃ before e after fault, s.toEntries = before ++ e :: after ∧
        (∀ e' ∈ before, ∃ x, readReal e'.value = .ok x) ∧ readReal e.value = .error fault ∧
        (database c).restore s site = (.error ⟨["parse metric value"],
          .parsing (Text.quote e.value ++ ": " ++ fault.message)⟩, site)) := by
  refine ⟨fun rows cause hmissing => ?_, fun rows hmissing => ?_, fun s hfault => ?_⟩
  · obtain ⟨written, r, rest, rfl, hr⟩ := Row.exists_first_missing hmissing
    have hwrite : (Transaction.start t).writeAll (written.map .ofFull ++ r :: rest) =
        (fail cause, ⟨t, written.foldl Tables.upsert t⟩) := by
      rw [Transaction.writeAll_append, Transaction.writeAll_of_missing _ hr]
      rfl
    refine ⟨⟨written, r, rest, rfl, hr, hwrite⟩, ?_⟩
    rw [h.update_eq_finish, hwrite]
    exact congrArg (Prod.mk _) (Connection.setTables_eq_self h.tables)
  · obtain ⟨written, rfl⟩ := Row.exists_map_ofFull (List.findSome?_eq_none_iff.mp hmissing)
    refine ⟨written, rfl, ?_, fun hsound => Tables.value?_foldl_upsert hsound written⟩
    have hwrite := Transaction.writeAll_append (.start t) written []
    rw [List.append_nil] at hwrite
    rw [h.update_eq_finish, hwrite]
    rfl
  · exact Tabular.restore_of_fault c.relational site hfault

/-- After a row of a new type and a row of a counter that is already there comes a gauge without a value. -/
theorem database_update_all_or_nothing_brokenGauge :
    let c := (Connection.openMemory .empty).1
    let before := (Connection.openMemory .empty).2
    let site := (c.update [.ofFull ⟨"counter", "a", .ofNat 5⟩] (c.migrate before).2).2
    let rows : List Row := [.ofFull ⟨"histogram", "h", .ofNat 1⟩,
      .ofFull ⟨"counter", "a", .ofNat 9⟩, ⟨some "gauge", some "b", none⟩, ⟨none, none, none⟩]
    (∃ t, c.Ready site t) ∧ rows.findSome? Row.missing? = some .recordValue ∧
      c.update rows site = (fail .recordValue, site) := by
  intro c before site rows
  have hfresh : c.tables? before = none := rfl
  have hmigrate : c.migrate before = (.ok (), (c.migrate before).2) := rfl
  have hready := ((Connection.ready_of_migrate hfresh hmigrate).updateAny
    [.ofFull ⟨"counter", "a", .ofNat 5⟩]).2
  have hmissing : rows.findSome? Row.missing? = some .recordValue := rfl
  refine ⟨⟨_, hready⟩, hmissing, ?_⟩
  exact ((database_update_all_or_nothing hready).1 rows .recordValue hmissing).2

end Backup

end Telemetry

-- SUMMARY: The backup in a relational database, which keeps every value as a binary64 number.
import Telemetry.Database.Relational
import Telemetry.Metric.Basic
import Telemetry.Snapshot

/-!
# The database backup

Every value is kept as a binary64 number, and values of counters become integers again when they are
read. The operations are written over any relational database.
-/

namespace Telemetry.Backup.Tabular

open Database

variable {σ : Type}

/-- The row of a metric. -/
def rowOf (m : Metric) : Row :=
  .ofFull ⟨m.kind.name, m.name, m.value.real⟩

/-- The text of a stored number under a type name. -/
def valueText (type : String) (x : Binary64) : String :=
  if type = Kind.counter.name then toString x.toInt64.toInt else x.text

/-- The entry of a stored row. -/
def entryOf (r : Row) : Outcome Snapshot.Entry := do
  let r ← within "read record" r.complete
  .ok ⟨r.type, r.name, valueText r.type r.value⟩

/-- The metric of a stored row. -/
def metricOf (r : Row) : Outcome Metric := do
  let r ← within "read record" r.complete
  let kind ← within ("read record with type '" ++ r.type ++ "'") (Kind.read r.type)
  match kind with
  | .counter => .ok ⟨r.name, .counter r.value.toInt64⟩
  | .gauge => .ok ⟨r.name, .gauge r.value⟩

/-- The row of an entry of a snapshot. Any number will do, whatever the type. -/
def rowOfEntry (e : Snapshot.Entry) : Outcome Row :=
  match readReal e.value with
  | .ok x => .ok (.ofFull ⟨e.type, e.name, x⟩)
  | .error fault =>
    within "parse metric value" (fail (.parsing (Text.quote e.value ++ ": " ++ fault.message)))

-- ---------------------------------------------------------------------------
-- The operations of a backup
-- ---------------------------------------------------------------------------

/-- Store the current values of a batch. -/
def add (db : Relational σ) (batch : List Metric) (s : σ) : Outcome Unit × σ :=
  let (result, s) := db.update (batch.map rowOf) s
  (within "update db record" result, s)

/-- The values of all rows. -/
def snapshot (db : Relational σ) (s : σ) : Outcome Snapshot × σ :=
  let (rows, s) := db.readAll s
  (do
    let rows ← within "read all db records" rows
    let entries ← rows.mapM entryOf
    .ok (.ofEntries entries), s)

/-- The metric of a type and a name. -/
def get (db : Relational σ) (type name : String) (s : σ) : Outcome Metric × σ :=
  let (row, s) := db.readOne type name s
  (do
    match ← within "read db record" row with
    | some row => metricOf row
    | none => fail (.notFound type name), s)

/-- Write the entries of a snapshot, once all of them have been read. -/
def restore (db : Relational σ) (snapshot : Snapshot) (s : σ) : Outcome Unit × σ :=
  match snapshot.toEntries.mapM rowOfEntry with
  | .error e => (.error e, s)
  | .ok rows =>
    let (result, s) := db.update rows s
    (within "update records" result, s)

end Telemetry.Backup.Tabular

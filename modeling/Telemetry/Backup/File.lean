-- SUMMARY: The backup in a single file, replaced as a whole on every write.
import Telemetry.Backup.Record
import Telemetry.Disk

/-!
# The file backup

All values are kept in one file. A write goes to a second file beside it, which then takes the place of
the first in one step; whatever happens on the way, the file holds the old records or the new ones. A
backup without a path keeps nothing.
-/

namespace Telemetry.Backup

/-- Where the backup is kept; without a path it is switched off. -/
structure FileBackup where
  path : Option String
  deriving DecidableEq, Repr

namespace FileBackup

/-- The file that is written before it takes the place of the one at `path`. -/
def scratchPath (path : String) : String :=
  path ++ ".tmp"

-- ---------------------------------------------------------------------------
-- Reading and writing all records
-- ---------------------------------------------------------------------------

/-- The records in the file. A missing file has none. -/
def records (b : FileBackup) (d : Disk) : Outcome (List Record) :=
  match b.path with
  | none => .ok []
  | some path =>
    match d.read path with
    | .error .notFound => .ok []
    | .error fault => fail (.io fault.message)
    | .ok content =>
      match Record.readFile? content with
      | some records => .ok records
      | none => within "decode storage" (fail (.serialization "expected a list of records"))

/-- The steps that replace the file at a path by one with the given records. -/
def writeSteps (path : String) (records : List Record) : List Disk.Step :=
  let scratch := scratchPath path
  [.create scratch, .append scratch (Record.writeFile records).toUTF8.toList, .sync scratch,
    .rename scratch path]

/-- Replace all records. -/
def write (b : FileBackup) (records : List Record) (d : Disk) : Outcome Unit × Disk :=
  match b.path with
  | none => (.ok (), d)
  | some path =>
    let (result, d) := d.runSteps (writeSteps path records)
    (result.mapError fun fault => (Cause.io fault.message).toError, d)

-- ---------------------------------------------------------------------------
-- The operations of a backup
-- ---------------------------------------------------------------------------

/-- Open the backup at a path, with an empty file if there is none. The empty path switches it off. -/
def openAt (path : String) (d : Disk) : Outcome FileBackup × Disk :=
  if path.isEmpty then (.ok ⟨none⟩, d)
  else
    let path := Path.canonical path
    let b : FileBackup := ⟨some path⟩
    if d.exists? path then (.ok b, d)
    else
      match d.makeFolders (Path.ancestors path) with
      | (.error fault, d) =>
        (within "create storage directory" (fail (.io fault.message)), d)
      | (.ok (), d) =>
        let (result, d) := b.write [] d
        (within "init storage file" (result.map fun _ => b), d)

/-- The record is about a metric of the batch. -/
def isReplaced (batch : List Metric) (r : Record) : Bool :=
  batch.any fun m => r.isFor m.kind.name m.name

/-- Store the current values of a batch. Records of the same metrics are dropped and the batch is put
    behind the others. -/
def add (b : FileBackup) (batch : List Metric) (d : Disk) : Outcome Unit × Disk :=
  match within "read records" (b.records d) with
  | .error e => (.error e, d)
  | .ok records =>
    let kept := records.filter fun r => !isReplaced batch r
    let (result, d) := b.write (kept ++ batch.map .ofMetric) d
    (within "write records" result, d)

/-- The values of all records, of several for one metric the last. Every record has to be complete. -/
def snapshot (b : FileBackup) (d : Disk) : Outcome Snapshot := do
  let records ← within "read records from file" (b.records d)
  let entries ← records.mapM Record.complete
  .ok (.ofEntries entries)

/-- The metric in the first record of a type and a name. -/
def get (b : FileBackup) (type name : String) (d : Disk) : Outcome Metric := do
  let records ← within "read records from file" (b.records d)
  match records.find? (·.isFor type name) with
  | some r => r.toMetric
  | none => fail (.notFound type name)

/-- Replace all records by the entries of a snapshot. -/
def restore (b : FileBackup) (s : Snapshot) (d : Disk) : Outcome Unit × Disk :=
  let (result, d) := b.write (s.toEntries.map .ofEntry) d
  (within "write records to file" result, d)

end FileBackup

end Telemetry.Backup

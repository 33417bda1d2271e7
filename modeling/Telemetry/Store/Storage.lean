-- SUMMARY: The storage of a collector: the memory store together with its backup.
import Telemetry.Backup.Basic
import Telemetry.Store.Memory

/-!
# Storage

Reads are answered from memory. In sync mode every update is written through to the backup before it is
acknowledged; otherwise the backup changes only when one is made. Restoring goes the other way and
replaces what is in memory.
-/

namespace Telemetry

/-- The live instances, the store that files them, the backup, and the site it is kept at. -/
structure Storage where
  instances : Instances
  memory : MemoryStore
  backup : Backup
  sync : Bool
  site : Site

namespace Storage

/-- The storage of a collector that has just started, among instances that others may hold. -/
def start (instances : Instances) (backup : Backup) (sync : Bool) (site : Site) : Storage :=
  ⟨instances, .empty, backup, sync, site⟩

-- ---------------------------------------------------------------------------
-- Memory
-- ---------------------------------------------------------------------------

/-- All values in memory. -/
def snapshot (s : Storage) : Snapshot :=
  s.memory.snapshot s.instances

/-- The instance of a type and a name. -/
def get (s : Storage) (type name : String) : Outcome Handle :=
  s.memory.get type name

/-- Replace what is in memory by a snapshot. -/
def restore (s : Storage) (snapshot : Snapshot) : Outcome Unit × Storage :=
  match MemoryStore.restore s.instances snapshot with
  | .ok (memory, instances) => (.ok (), { s with memory, instances })
  | .error e => (.error e, s)

/-- The storage after instances have been added to memory, and the stored instances. -/
def addToMemory (s : Storage) (handles : List Handle) : List Handle × Storage :=
  let (stored, memory, instances) := s.memory.add s.instances handles
  (stored, { s with memory, instances })

-- ---------------------------------------------------------------------------
-- Memory and backup
-- ---------------------------------------------------------------------------

/-- Write the current values of stored instances to the backup. -/
def writeThrough (s : Storage) (stored : List Handle) : Outcome Unit × Storage :=
  let (result, site) := s.backup.add (s.instances.metrics stored) s.site
  (within "add metric values to backup storage" result, { s with site })

/-- Add instances. The results are the stored instances in the same order. -/
def add (s : Storage) (handles : List Handle) : Outcome (List Handle) × Storage :=
  let (stored, s) := s.addToMemory handles
  if s.sync then
    let (result, s) := s.writeThrough stored
    (result.map fun _ => stored, s)
  else (.ok stored, s)

/-- Copy what is in memory to the backup. -/
def createBackup (s : Storage) : Outcome Unit × Storage :=
  let (result, site) := s.backup.restore s.snapshot s.site
  (result, { s with site })

/-- Replace what is in memory by the content of the backup. -/
def restoreFromBackup (s : Storage) : Outcome Unit × Storage :=
  match within "get metrics from backup storage" (s.backup.snapshot s.site) with
  | .ok snapshot => s.restore snapshot
  | .error e => (.error e, s)

/-- Whether the backup can be reached. -/
def ping (s : Storage) : Outcome Unit :=
  s.backup.ping s.site

/-- Make a last backup and release it. -/
def close (s : Storage) : Outcome Unit × Storage :=
  match s.createBackup with
  | (.ok (), s) => (.ok (), { s with backup := s.backup.close })
  | (.error e, s) => (.error (e.within "final backup"), s)

/-- The storage in diagnostic output. -/
def debug (s : Storage) : String :=
  "StorageStrategy \x7b backup: " ++ Text.quote s.backup.kindName ++ ", sync_mode: "
    ++ toString s.sync ++ ", .. \x7d"

end Storage

end Telemetry

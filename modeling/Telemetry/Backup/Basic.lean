-- SUMMARY: The backup of a collector: a file or a database, with the same operations.
import Telemetry.Backup.Database
import Telemetry.Backup.File
import Telemetry.Database.Connection

/-!
# Backups

A collector has one backup, which is a file or a database for as long as it runs. Both offer the same
operations on the site.
-/

namespace Telemetry

/-- Where a collector keeps its durable copy. -/
inductive Backup where
  | file (backup : Backup.FileBackup)
  | database (connection : Database.Connection)
  deriving DecidableEq

namespace Backup

/-- What kind of backup it is. -/
def kindName : Backup → String
  | file _ => "file"
  | database _ => "database"

/-- The result of a change of the disk as a change of the site. -/
def onDisk {α : Type} (site : Site) (f : Disk → Outcome α × Disk) : Outcome α × Site :=
  let (result, disk) := f site.disk
  (result, { site with disk })

/-- Open the backup: the database if one is named, otherwise the file. -/
def openAt (address? : Option String) (path : String) (site : Site) : Outcome Backup × Site :=
  match address? with
  | some address =>
    let (connection, site) := Database.Connection.connectAndMigrate address site
    (connection.map database, site)
  | none =>
    let (backup, site) := onDisk site (FileBackup.openAt path)
    (backup.map file, site)

/-- Store the current values of a batch. -/
def add (b : Backup) (batch : List Metric) (site : Site) : Outcome Unit × Site :=
  match b with
  | file b => onDisk site (b.add batch)
  | database c => Tabular.add c.relational batch site

/-- All values. -/
def snapshot (b : Backup) (site : Site) : Outcome Snapshot :=
  match b with
  | file b => b.snapshot site.disk
  | database c => (Tabular.snapshot c.relational site).1

/-- The metric of a type and a name. -/
def get (b : Backup) (type name : String) (site : Site) : Outcome Metric :=
  match b with
  | file b => b.get type name site.disk
  | database c => (Tabular.get c.relational type name site).1

/-- Take over a snapshot. -/
def restore (b : Backup) (s : Snapshot) (site : Site) : Outcome Unit × Site :=
  match b with
  | file b => onDisk site (b.restore s)
  | database c => Tabular.restore c.relational s site

/-- Whether the backup can be reached. A file always can. -/
def ping (b : Backup) (site : Site) : Outcome Unit :=
  match b with
  | file _ => .ok ()
  | database c => (c.relational.ping site).1

/-- The backup after it has been closed. -/
def close : Backup → Backup
  | file b => file b
  | database c => database { c with isOpen := false }

end Backup

end Telemetry

-- SUMMARY: The life of a collector: it is built from settings, serves, makes backups, and stops.
import Telemetry.Collector.Basic
import Telemetry.Network
import Telemetry.Settings.Basic
import Telemetry.Worker

/-!
# The service

A collector is built from its settings, with what the last backup holds. While it serves it makes backups
at intervals, unless every update is written through, and it makes a last one when it stops. Neither a
backup that cannot be loaded nor one that cannot be made at its time keeps it from serving.
-/

namespace Telemetry.Collector

-- ---------------------------------------------------------------------------
-- Building
-- ---------------------------------------------------------------------------

/-- Open the storage that settings describe. -/
def openStorage (settings : CollectorSettings) (instances : Instances) (site : Site) :
    Outcome Storage × Site :=
  let address? := settings.database?.map (·.url)
  match Backup.openAt address? settings.storeFile site with
  | (.error e, site) => (.error (e.within "create backup storage"), site)
  | (.ok backup, site) =>
    let storage := Storage.start instances backup settings.sync site
    let storage := if settings.restore then storage.restoreFromBackup.2 else storage
    (.ok storage, storage.site)

/-- Build a collector among instances that others may hold. -/
def build (settings : CollectorSettings) (instances : Instances) (site : Site) :
    Outcome Collector × Site :=
  let (storage, site) := openStorage settings instances site
  (storage.map fun storage => ⟨storage, .ofKey settings.key⟩, site)

/-- Build the collector that is described, if one is. -/
def assemble (settings? : Option CollectorSettings) (site : Site) : Outcome Collector × Site :=
  match settings? with
  | some settings => build settings .empty site
  | none => (fail (.config "Configuration is required"), site)

-- ---------------------------------------------------------------------------
-- Serving
-- ---------------------------------------------------------------------------

/-- A collector that listens at its address. -/
structure Service where
  collector : Collector
  /-- The worker that makes backups. -/
  backups : Option Worker

namespace Service

/-- The worker that makes the backups of a storage. -/
def backupWorker (settings : CollectorSettings) (storage : Storage) : Outcome (Option Worker) :=
  if storage.sync then .ok none
  else (Worker.make "backup metrics" (settings.storeInterval * 1000)).map some

/-- The error of an address that cannot be listened at. -/
def bindError (address : String) : BindFault → Error
  | .inUse => (Cause.config ("Address " ++ address ++ " is already in use")).toError
  | .unusable =>
    (Cause.config ("Failed to bind to " ++ address ++ ": address not available")).toError

/-- Build a collector and listen. If the address is not to be had the storage is closed again. -/
def start (settings : CollectorSettings) (network : Network) (site : Site) : Outcome Service × Site :=
  match assemble (some settings) site with
  | (.error e, site) => (.error e, site)
  | (.ok collector, site) =>
    match backupWorker settings collector.storage with
    | .error e => (.error e, site)
    | .ok backups =>
      match network.bind settings.address with
      | .ok () => (.ok ⟨collector, backups⟩, site)
      | .error fault =>
        (.error (bindError settings.address fault), collector.storage.close.2.site)

/-- Make a backup. One that fails is left to the next. -/
def backUp (s : Service) : Service :=
  { s with collector.storage := s.collector.storage.createBackup.2 }

/-- The service after some milliseconds without requests. -/
def idle (s : Service) (millis : Nat) : Service :=
  match s.backups with
  | some worker => (worker.starts millis []).foldl (fun s _ => s.backUp) s
  | none => s

/-- Stop serving. -/
def stop (s : Service) : Outcome Unit × Site :=
  let (result, storage) := s.collector.storage.close
  (result, storage.site)

end Service

end Telemetry.Collector

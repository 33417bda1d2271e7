-- SUMMARY: The settings of collector and agent, their defaults, and what makes them valid.
import Telemetry.Agent.RuntimeStat
import Telemetry.Log.Level
import Telemetry.Text.Blank

/-!
# Settings

Each program has its settings with defaults. Settings are checked as a whole, and the first fault in a
fixed order is reported.
-/

namespace Telemetry

-- ---------------------------------------------------------------------------
-- Databases
-- ---------------------------------------------------------------------------

/-- How a database is reached. -/
structure DatabaseSettings where
  url : String
  maxConnections : Nat
  /-- Seconds. -/
  connectionTimeout : Nat
  deriving DecidableEq, Repr

namespace DatabaseSettings

/-- The beginnings of the addresses of databases. -/
def schemes : List String :=
  ["postgresql://", "postgres://", "sqlite:"]

def maxConnectionsDefault : Nat := 10

def connectionTimeoutDefault : Nat := 5

/-- The first fault of the settings. -/
def fault? (s : DatabaseSettings) : Option String :=
  if s.url.isEmpty then some "Database URL cannot be empty"
  else if !(schemes.any fun scheme => s.url.startsWith scheme) then
    some "Only PostgreSQL and SQLite databases are supported"
  else if s.maxConnections = 0 then some "Database max connections must be greater than 0"
  else if 1000 < s.maxConnections then some "Database max connections should not exceed 1000"
  else if s.connectionTimeout = 0 then
    some "Database connection timeout must be greater than 0"
  else none

end DatabaseSettings

/-- A text without a character other than blanks. -/
def Text.isAllBlank (text : String) : Bool :=
  text.toList.all Text.isBlank

/-- Settings without a fault. -/
def checkSettings {α : Type} (fault? : α → Option String) (settings : α) : Outcome α :=
  match fault? settings with
  | some fault => fail (.config fault)
  | none => .ok settings

-- ---------------------------------------------------------------------------
-- The collector
-- ---------------------------------------------------------------------------

/-- The settings of a collector. -/
structure CollectorSettings where
  address : String
  /-- The key of signatures; the empty key is none. -/
  key : String
  /-- Seconds between backups; without a pause every update is written through. -/
  storeInterval : Nat
  /-- The path of the backup; the empty path is none. -/
  storeFile : String
  /-- The last backup is loaded at the start. -/
  restore : Bool
  databaseAddress : Option String
  maxConnections : Nat
  logLevel : Log.Level
  logFormat : Log.Format
  deriving DecidableEq, Repr

namespace CollectorSettings

def default : CollectorSettings where
  address := "localhost:8080"
  key := ""
  storeInterval := 300
  storeFile := "/tmp/metrics-db.json"
  restore := true
  databaseAddress := none
  maxConnections := DatabaseSettings.maxConnectionsDefault
  logLevel := .info
  logFormat := .text

/-- The database that replaces the backup file, if an address is given that is not blank. -/
def database? (s : CollectorSettings) : Option DatabaseSettings :=
  match s.databaseAddress.map Text.trim with
  | some url =>
    if url.isEmpty then none
    else some ⟨url, s.maxConnections, DatabaseSettings.connectionTimeoutDefault⟩
  | none => none

/-- Every update is written through to the backup. -/
def sync (s : CollectorSettings) : Bool :=
  s.database?.isSome || s.storeInterval == 0

/-- Records are signed. -/
def signs (s : CollectorSettings) : Bool :=
  !s.key.isEmpty

/-- The first fault of the settings. -/
def fault? (s : CollectorSettings) : Option String :=
  if Text.isAllBlank s.address then some "Collector address cannot be empty"
  else if !s.address.toList.contains ':' then
    some ("Collector address must be host:port, got " ++ s.address)
  else s.database?.bind DatabaseSettings.fault?

end CollectorSettings

-- ---------------------------------------------------------------------------
-- The agent
-- ---------------------------------------------------------------------------

/-- How an agent sends its metrics. -/
inductive PushMode where
  /-- One request for each metric, which is named in the path. -/
  | url
  /-- Lists of records. -/
  | json
  deriving DecidableEq, Repr

namespace PushMode

def name : PushMode → String
  | url => "url"
  | json => "json"

/-- The mode with a name in small letters. -/
def ofName? (name : String) : Option PushMode :=
  match name with
  | "url" => some url
  | "json" => some json
  | _ => none

/-- The mode that a text names in any case. -/
def read (text : String) : Outcome PushMode :=
  match ofName? (Text.lower text) with
  | some mode => .ok mode
  | none => fail (.config ("Invalid push mode: " ++ text))

end PushMode

/-- The settings of an agent. -/
structure AgentSettings where
  address : String
  /-- The key of signatures; the empty key is none. -/
  key : String
  /-- The number of requests at the same time. -/
  rateLimit : Nat
  /-- Seconds until a request is given up. -/
  pushTimeout : Nat
  /-- Seconds between pushes. -/
  reportInterval : Nat
  /-- Seconds between polls. -/
  pollInterval : Nat
  pushMode : PushMode
  /-- The number of records in a request. -/
  batchSize : Nat
  /-- Lists of records are compressed. -/
  compress : Bool
  runtimeMetrics : List String
  logLevel : Log.Level
  logFormat : Log.Format
  deriving DecidableEq, Repr

namespace AgentSettings

def default : AgentSettings where
  address := "localhost:8080"
  key := ""
  rateLimit := 20
  pushTimeout := 10
  reportInterval := 10
  pollInterval := 2
  pushMode := .json
  batchSize := 100
  compress := false
  runtimeMetrics := ["Alloc", "Sys", "CPUPercent", "Uptime"]
  logLevel := .info
  logFormat := .text

/-- Records are signed. -/
def signs (s : AgentSettings) : Bool :=
  !s.key.isEmpty

/-- The first fault of the settings. -/
def fault? (s : AgentSettings) : Option String :=
  if Text.isAllBlank s.address then some "Collector address cannot be empty"
  else if s.rateLimit = 0 then some "Rate limit must be greater than 0"
  else if s.pushTimeout = 0 then some "Push timeout must be greater than 0"
  else if s.reportInterval = 0 then some "Report interval must be greater than 0"
  else if s.pollInterval = 0 then some "Poll interval must be greater than 0"
  else if s.batchSize = 0 then some "Batch size must be greater than 0"
  else
    (s.runtimeMetrics.find? fun name => (Agent.RuntimeStat.ofName? name).isNone).map
      ("Unknown runtime metric: " ++ ·)

end AgentSettings

end Telemetry

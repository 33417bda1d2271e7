-- SUMMARY: Settings from defaults, a file, and what command line and environment give.
import Telemetry.Disk
import Telemetry.Settings.Flag
import Telemetry.Text.Utf8
import Telemetry.Yaml.Reader

/-!
# Loading settings

Settings are layered: the defaults, then the file if one is named, then the values that command line and
environment give. The result has to be valid.
-/

namespace Telemetry

-- ---------------------------------------------------------------------------
-- Files
-- ---------------------------------------------------------------------------

namespace Settings

/-- The fields of a document, none of the known ones repeated. -/
structure Fields where
  entries : List (String × Yaml)

/-- The value of a field if it is there; it may stand once and has to be readable. -/
def Fields.get {α : Type} (f : Fields) (name : String) (fallback : α) (decode : Yaml → Option α) :
    Option α :=
  match f.entries.filter (·.1 = name) with
  | [] => some fallback
  | [(_, value)] => decode value
  | _ => none

/-- The word of a field that names one of several things. -/
def word? {α : Type} (ofName? : String → Option α) (value : Yaml) : Option α :=
  value.text?.bind ofName?

/-- Read the document in a file and decode it. -/
def readFile {α : Type} (decode : Fields → Option α) (path : String) (disk : Disk) : Outcome α :=
  match disk.read (Path.canonical path) with
  | .error fault => fail (.config ("Failed to read config file: " ++ fault.message))
  | .ok content =>
    match Utf8.decode? content with
    | none => fail (.config "Failed to read config file: invalid UTF-8")
    | some text =>
      match ((Yaml.read? text).bind Yaml.fields?).bind fun entries => decode ⟨entries⟩ with
      | some settings => .ok settings
      | none => fail (.config "Failed to parse config: unexpected content")

/-- Load the settings that are given, over those of the file that is named, over the defaults. -/
def load {α : Type} (default : α) (ofFields? : Fields → Option α) (overlay : Given → α → α)
    (fault? : α → Option String) (g : Given) (disk : Disk) : Outcome α := do
  let base ←
    match g.value? "config" with
    | some path => readFile ofFields? path disk
    | none => .ok default
  checkSettings fault? (overlay g base)

/-- A log level, or another if there is none. -/
def Given.level (g : Given) (fallback : Log.Level) : Log.Level :=
  ((g.value? "log-level").bind fun text => (Log.Level.read text).toOption).getD fallback

/-- A log format, or another if there is none. -/
def Given.format (g : Given) (fallback : Log.Format) : Log.Format :=
  ((g.value? "log-format").bind fun text => (Log.Format.read text).toOption).getD fallback

end Settings

-- ---------------------------------------------------------------------------
-- The collector
-- ---------------------------------------------------------------------------

namespace CollectorSettings

open Settings

/-- The flags of a collector. -/
def flags : List Flag :=
  [⟨"config", some 'c', "CONFIG", .path⟩, ⟨"address", some 'a', "ADDRESS", .text⟩,
    ⟨"key", some 'k', "KEY", .text⟩, ⟨"store-interval", some 'i', "STORE_INTERVAL", .natural⟩,
    ⟨"store-file", some 'f', "STORE_FILE", .text⟩, ⟨"restore", some 'r', "RESTORE", .bool⟩,
    ⟨"database-dsn", some 'd', "DATABASE_DSN", .text⟩, ⟨"log-level", none, "LOG_LEVEL", .level⟩,
    ⟨"log-format", none, "LOG_FORMAT", .format⟩]

/-- The settings of a document. -/
def ofFields? (f : Fields) : Option CollectorSettings := do
  let base := CollectorSettings.default
  some
    { address := ← f.get "address" base.address Yaml.text?
      key := ← f.get "key" base.key Yaml.text?
      storeInterval := ← f.get "store_interval" base.storeInterval (Yaml.natural? 64)
      storeFile := ← f.get "store_file" base.storeFile Yaml.text?
      restore := ← f.get "restore" base.restore Yaml.bool?
      databaseAddress := ← f.get "database_dsn" base.databaseAddress Yaml.optionalText?
      maxConnections := ← f.get "database_max_connections" base.maxConnections (Yaml.natural? 32)
      logLevel := ← f.get "log_level" base.logLevel (word? Log.Level.ofName?)
      logFormat := ← f.get "log_format" base.logFormat (word? Log.Format.ofName?) }

/-- The settings with the given values in their places. -/
def overlay (g : Given) (s : CollectorSettings) : CollectorSettings :=
  { s with
    address := (g.value? "address").getD s.address
    key := (g.value? "key").getD s.key
    storeInterval := (g.natural? "store-interval").getD s.storeInterval
    storeFile := (g.value? "store-file").getD s.storeFile
    restore := (g.bool? "restore").getD s.restore
    databaseAddress := (g.value? "database-dsn").or s.databaseAddress
    logLevel := g.level s.logLevel
    logFormat := g.format s.logFormat }

/-- Load the settings of a collector. -/
def load : Given → Disk → Outcome CollectorSettings :=
  Settings.load CollectorSettings.default ofFields? overlay fault?

end CollectorSettings

-- ---------------------------------------------------------------------------
-- The agent
-- ---------------------------------------------------------------------------

namespace AgentSettings

open Settings

/-- The flags of an agent. -/
def flags : List Flag :=
  [⟨"config", some 'c', "CONFIG", .path⟩, ⟨"address", some 'a', "ADDRESS", .text⟩,
    ⟨"key", some 'k', "KEY", .text⟩, ⟨"rate-limit", some 'l', "RATE_LIMIT", .natural⟩,
    ⟨"push-timeout", some 't', "PUSH_TIMEOUT", .natural⟩,
    ⟨"report-interval", some 'r', "REPORT_INTERVAL", .natural⟩,
    ⟨"poll-interval", some 'p', "POLL_INTERVAL", .natural⟩,
    ⟨"push-mode", none, "PUSH_MODE", .mode⟩, ⟨"batch-size", none, "BATCH_SIZE", .natural⟩,
    ⟨"compress", none, "COMPRESS", .bool⟩, ⟨"runtime-metrics", none, "RUNTIME_METRICS", .texts⟩,
    ⟨"log-level", none, "LOG_LEVEL", .level⟩, ⟨"log-format", none, "LOG_FORMAT", .format⟩]

/-- The settings of a document. -/
def ofFields? (f : Fields) : Option AgentSettings := do
  let base := AgentSettings.default
  some
    { address := ← f.get "address" base.address Yaml.text?
      key := ← f.get "key" base.key Yaml.text?
      rateLimit := ← f.get "rate_limit" base.rateLimit (Yaml.natural? 64)
      pushTimeout := ← f.get "push_timeout" base.pushTimeout (Yaml.natural? 64)
      reportInterval := ← f.get "report_interval" base.reportInterval (Yaml.natural? 64)
      pollInterval := ← f.get "poll_interval" base.pollInterval (Yaml.natural? 64)
      pushMode := ← f.get "push_mode" base.pushMode (word? PushMode.ofName?)
      batchSize := ← f.get "batch_size" base.batchSize (Yaml.natural? 64)
      compress := ← f.get "compress" base.compress Yaml.bool?
      runtimeMetrics := ← f.get "runtime_metrics" base.runtimeMetrics Yaml.texts?
      logLevel := ← f.get "log_level" base.logLevel (word? Log.Level.ofName?)
      logFormat := ← f.get "log_format" base.logFormat (word? Log.Format.ofName?) }

/-- The settings with the given values in their places. -/
def overlay (g : Given) (s : AgentSettings) : AgentSettings :=
  { s with
    address := (g.value? "address").getD s.address
    key := (g.value? "key").getD s.key
    rateLimit := (g.natural? "rate-limit").getD s.rateLimit
    pushTimeout := (g.natural? "push-timeout").getD s.pushTimeout
    reportInterval := (g.natural? "report-interval").getD s.reportInterval
    pollInterval := (g.natural? "poll-interval").getD s.pollInterval
    pushMode :=
      ((g.value? "push-mode").bind fun text => (PushMode.read text).toOption).getD s.pushMode
    batchSize := (g.natural? "batch-size").getD s.batchSize
    compress := (g.bool? "compress").getD s.compress
    runtimeMetrics := (g.values? "runtime-metrics").getD s.runtimeMetrics
    logLevel := g.level s.logLevel
    logFormat := g.format s.logFormat }

/-- Load the settings of an agent. -/
def load : Given → Disk → Outcome AgentSettings :=
  Settings.load AgentSettings.default ofFields? overlay fault?

end AgentSettings

end Telemetry

-- SUMMARY: The pusher: how metrics become deliveries.
import Telemetry.Agent.Address
import Telemetry.Agent.Delivery
import Telemetry.Gzip.Basic
import Telemetry.Metric.Instances
import Telemetry.Settings.Basic
import Telemetry.Text.Utf8
import Telemetry.Wire.Converter

/-!
# The pusher

A pusher sends metrics either as lists of records, or one by one with the metric named in the path. A
number of deliveries may be on their way at the same time.
-/

namespace Telemetry.Agent

/-- Where and how metrics are sent. -/
structure Pusher where
  /-- How the names of hosts are brought to ASCII. -/
  toAscii? : Url.ToAscii
  /-- The canonical address of the collector. -/
  baseUrl : String
  converter : Wire.Converter
  mode : PushMode
  /-- The number of deliveries at the same time. -/
  parallel : Nat
  parallel_pos : 0 < parallel
  /-- The number of records in a list. -/
  batchSize : Nat
  batchSize_pos : 0 < batchSize
  /-- How long a reply is waited for. -/
  patience : Duration
  /-- Lists of records are compressed. -/
  compress : Bool

namespace Pusher

/-- The pusher that settings describe. -/
def ofSettings (toAscii? : Url.ToAscii) (s : AgentSettings) : Outcome Pusher := do
  let baseUrl ← within "normalize url" (normalizeUrl toAscii? s.address)
  .ok
    { toAscii?
      baseUrl
      converter := .ofKey s.key
      mode := s.pushMode
      parallel := max s.rateLimit 1
      parallel_pos := by omega
      batchSize := max s.batchSize 1
      batchSize_pos := by omega
      patience := .ofSeconds s.pushTimeout
      compress := s.compress }

-- ---------------------------------------------------------------------------
-- Batches
-- ---------------------------------------------------------------------------

/-- The number of metrics in a delivery. -/
def batchLimit (p : Pusher) : Nat :=
  match p.mode with
  | .json => p.batchSize
  | .url => 1

theorem batchLimit_pos (p : Pusher) : 0 < p.batchLimit := by
  unfold batchLimit
  cases p.mode
  · exact Nat.one_pos
  · exact p.batchSize_pos

/-- Cut a list into pieces of a length, of which the last may be shorter. -/
def pieces {α : Type} (length : Nat) (length_pos : 0 < length) (xs : List α) : List (List α) :=
  if xs = [] then [] else xs.take length :: pieces length length_pos (xs.drop length)
termination_by xs.length
decreasing_by
  have : 0 < xs.length := List.length_pos_iff.mpr ‹_›
  simp only [List.length_drop]
  omega

/-- The batches in which metrics are sent. -/
def batches {α : Type} (p : Pusher) (metrics : List α) : List (List α) :=
  pieces p.batchLimit p.batchLimit_pos metrics

-- ---------------------------------------------------------------------------
-- Deliveries
-- ---------------------------------------------------------------------------

/-- The delivery of a list of records. -/
def listDelivery (p : Pusher) (metrics : List Metric) : Outcome Delivery := do
  let records ← within "create model request" (metrics.mapM p.converter.encode)
  let body := Utf8.encode (Wire.Record.writeAll records)
  match Url.readWeb? p.toAscii? (p.baseUrl ++ "/updates/") with
  | some (.ok url) =>
    .ok
      { url
        contentType := "application/json"
        contentEncoding := if p.compress then some "gzip" else none
        body := if p.compress then Gzip.compress body else body }
  | _ => within "push metrics" (fail (.httpClient "invalid address"))

/-- The delivery of a metric that is named in the path. -/
def pathDelivery (p : Pusher) (m : Metric) : Outcome Delivery :=
  match Url.readWeb? p.toAscii? p.baseUrl with
  | some (.ok base) =>
    .ok
      { url := base.addSegments ["update", m.kind.name, m.name, m.value.text]
        contentType := "text/plain"
        contentEncoding := none
        body := [] }
  | _ => fail (.config "Invalid collector url")

/-- The delivery of a batch with the values that its metrics have now. -/
def delivery (p : Pusher) (batch : List Metric) : Outcome Delivery :=
  match p.mode, batch with
  | .url, [m] => p.pathDelivery m
  | _, metrics => p.listDelivery metrics

/-- What the pusher does while a batch is on its way. -/
def context (p : Pusher) (batch : List Metric) : String :=
  match p.mode, batch with
  | .url, [m] => "push metric " ++ m.name
  | _, _ => "push metrics"

end Pusher

end Telemetry.Agent

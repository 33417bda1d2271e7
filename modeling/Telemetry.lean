import Telemetry.Agent.Address
import Telemetry.Agent.Basic
import Telemetry.Agent.Cycle
import Telemetry.Agent.Delivery
import Telemetry.Agent.Group
import Telemetry.Agent.Merge
import Telemetry.Agent.Provider
import Telemetry.Agent.Pusher
import Telemetry.Agent.RuntimeStat
import Telemetry.Backup.Basic
import Telemetry.Backup.Database
import Telemetry.Backup.File
import Telemetry.Backup.Record
import Telemetry.BuildInfo
import Telemetry.Calendar
import Telemetry.Collector.Basic
import Telemetry.Collector.Route
import Telemetry.Collector.Service
import Telemetry.Database.Address
import Telemetry.Database.Connection
import Telemetry.Database.Relational
import Telemetry.Database.Tables
import Telemetry.Digest.Hmac
import Telemetry.Digest.Sha256
import Telemetry.Disk
import Telemetry.Duration
import Telemetry.Error
import Telemetry.Gzip.Basic
import Telemetry.Gzip.Checksum
import Telemetry.Gzip.Code
import Telemetry.Gzip.Deflate
import Telemetry.Gzip.Inflate
import Telemetry.Http.Body
import Telemetry.Http.MediaType
import Telemetry.Http.Message
import Telemetry.Json.Basic
import Telemetry.Json.Reader
import Telemetry.Json.Writer
import Telemetry.Log.Filter
import Telemetry.Log.Level
import Telemetry.Log.Logger
import Telemetry.Main
import Telemetry.Metric.Basic
import Telemetry.Metric.Instances
import Telemetry.Metric.Value
import Telemetry.Network
import Telemetry.Number.Binary64
import Telemetry.Number.Decimal
import Telemetry.Number.Notation
import Telemetry.Number.Reading
import Telemetry.Number.Saturating
import Telemetry.Page
import Telemetry.Program
import Telemetry.Settings.Basic
import Telemetry.Settings.EnvironmentFile
import Telemetry.Settings.Flag
import Telemetry.Settings.Load
import Telemetry.Site
import Telemetry.Snapshot
import Telemetry.SortedMap
import Telemetry.Store.Memory
import Telemetry.Store.Storage
import Telemetry.Text.Blank
import Telemetry.Text.Hex
import Telemetry.Text.Letters
import Telemetry.Text.Quoted
import Telemetry.Text.Unprinted
import Telemetry.Text.Utf8
import Telemetry.Url.Basic
import Telemetry.Url.Domain
import Telemetry.Url.Host
import Telemetry.Url.Percent
import Telemetry.Url.Punycode
import Telemetry.Wire.Converter
import Telemetry.Wire.Record
import Telemetry.Wire.Signer
import Telemetry.Worker
import Telemetry.Yaml.Basic
import Telemetry.Yaml.Cursor
import Telemetry.Yaml.Reader
import Telemetry.Yaml.Scalar
import Telemetry.Proofs.Snapshot
import Telemetry.Proofs.Instances
import Telemetry.Proofs.Number.Saturation
import Telemetry.Proofs.Store.Filing
import Telemetry.Proofs.Store.Accumulation
import Telemetry.Proofs.Backup.File
import Telemetry.Proofs.Metric.Text
import Telemetry.Proofs.Outcome
import Telemetry.Proofs.Store.Adding
import Telemetry.Proofs.Store.Durability
import Telemetry.Proofs.Agent.Amounts
import Telemetry.Proofs.Agent.Conservation
import Telemetry.Proofs.Store.Sharing
import Telemetry.Proofs.Store.Calls
import Telemetry.Proofs.Store.Flushing
import Telemetry.Proofs.Database.Tables
import Telemetry.Proofs.Number.Wholes
import Telemetry.Proofs.Backup.Database
import Telemetry.Proofs.Backup.Retention
import Telemetry.Proofs.Store.Agreement
import Telemetry.Proofs.Database.Listing
import Telemetry.Proofs.Backup.Changes
import Telemetry.Proofs.Backup.Merging
import Telemetry.Proofs.Backup.Interruption
import Telemetry.Proofs.Digest.Hmac
import Telemetry.Proofs.Metric.CanonicalText
import Telemetry.Proofs.Text.Hex
import Telemetry.Proofs.Wire.Signing
import Telemetry.Proofs.Wire.Conversion
import Telemetry.Proofs.Wire.Tampering
import Telemetry.Proofs.Collector.Answering
import Telemetry.Proofs.Json.Numbers
import Telemetry.Proofs.Wire.Text
import Telemetry.Proofs.Collector.Intake
import Telemetry.Proofs.Backup.Restoration
import Telemetry.Proofs.Collector.Updating
import Telemetry.Proofs.Url.Percent
import Telemetry.Proofs.Collector.Routing
import Telemetry.Proofs.Agent.Addressing
import Telemetry.Proofs.Agent.Remainder
import Telemetry.Proofs.Agent.Schedule
import Telemetry.Proofs.Agent.Channel
import Telemetry.Proofs.Agent.Siblings
import Telemetry.Proofs.Url.Name
import Telemetry.Proofs.Url.Address
import Telemetry.Proofs.Url.Host
import Telemetry.Proofs.Url.Path
import Telemetry.Proofs.Url.RoundTrip
import Telemetry.Proofs.Url.Punycode
import Telemetry.Proofs.Url.Domain
import Telemetry.Proofs.Agent.Normalizing
import Telemetry.Proofs.Store.RoundTrip
import Telemetry.Proofs.Number.Grid
import Telemetry.Proofs.Backup.Transactions
import Telemetry.Proofs.Backup.Lookups
import Telemetry.Proofs.Backup.Overlays
import Telemetry.Proofs.Backup.Counters
import Telemetry.Proofs.Store.Recovery
import Telemetry.Proofs.Wire.Acceptance
import Telemetry.Proofs.Wire.Reuse
import Telemetry.Proofs.Page

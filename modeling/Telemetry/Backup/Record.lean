-- SUMMARY: Records of the backup file: one stored value each, every part of which may be missing.
import Telemetry.Json.Reader
import Telemetry.Json.Writer
import Telemetry.Metric.Basic
import Telemetry.Snapshot

/-!
# Backup records

A backup file lists one record for each stored value: type, name and the text of the value. A file that
somebody edited may lack any of them, so each part is optional; a missing part is written as `null`. A
record is complete if no part is missing or empty.
-/

namespace Telemetry.Backup

/-- A stored value as it is kept in a file. -/
structure Record where
  type : Option String
  name : Option String
  value : Option String
  deriving DecidableEq, Repr

namespace Record

/-- The complete record of an entry of a snapshot. -/
def ofEntry (e : Snapshot.Entry) : Record :=
  ⟨some e.type, some e.name, some e.value⟩

/-- The record of the current value of a metric. -/
def ofMetric (m : Metric) : Record :=
  ofEntry ⟨m.kind.name, m.name, m.value.text⟩

/-- The record is about this type and name. -/
def isFor (r : Record) (type name : String) : Bool :=
  r.type == some type && r.name == some name

/-- A part that is there and not empty. -/
def present (part : Option String) (missing : Cause) : Outcome String :=
  match part with
  | some text => if text.isEmpty then fail missing else .ok text
  | none => fail missing

/-- All parts of a record, or the first that is missing. -/
def complete (r : Record) : Outcome Snapshot.Entry := do
  let type ← present r.type .recordType
  let name ← present r.name .recordName
  let value ← present r.value .recordValue
  .ok ⟨type, name, value⟩

/-- The metric that a record holds. -/
def toMetric (r : Record) : Outcome Metric := do
  let e ← r.complete
  let kind ← Kind.read e.type
  let value ← Value.read kind e.value
  .ok ⟨e.name, value⟩

-- ---------------------------------------------------------------------------
-- Text
-- ---------------------------------------------------------------------------

/-- The text of a part. -/
def writePart : Option String → String
  | some text => Json.writeString text
  | none => "null"

/-- The fields of a record in the order of the format. -/
def fields (r : Record) : List (String × String) :=
  [("types", writePart r.type), ("name", writePart r.name), ("value", writePart r.value)]

/-- A record on one line. -/
def write (r : Record) : String :=
  Json.compactObject r.fields

/-- The text of a file of records. -/
def writeFile (records : List Record) : String :=
  Json.indentedArray 0 (records.map fun r => Json.indentedObject 1 r.fields) ++ "\n"

/-- A record from its three parts. -/
def ofParts? (type name value : Json) : Option Record := do
  let type ← type.optional? Json.text?
  let name ← name.optional? Json.text?
  let value ← value.optional? Json.text?
  some ⟨type, name, value⟩

/-- A record from a JSON value: an object, or the parts in order as an array. Parts may be left out, but
    no known field may be repeated. -/
def ofJson? : Json → Option Record
  | .object fields => do
    guard (fields.all (·.1.isSome))
    let type ← Json.field? "types" fields
    let name ← Json.field? "name" fields
    let value ← Json.field? "value" fields
    ofParts? (type.getD .null) (name.getD .null) (value.getD .null)
  | .array [] => ofParts? .null .null .null
  | .array [type] => ofParts? type .null .null
  | .array [type, name] => ofParts? type name .null
  | .array [type, name, value] => ofParts? type name value
  | _ => none

/-- A list of records from a JSON value. -/
def listOfJson? : Json → Option (List Record)
  | .array items => items.mapM ofJson?
  | _ => none

/-- The byte is white space in a file. -/
def isBlankByte (byte : UInt8) : Bool :=
  byte == 0x20 || byte == 0x09 || byte == 0x0a || byte == 0x0c || byte == 0x0d

/-- The records of a file. A file of white space has none. -/
def readFile? (content : List UInt8) : Option (List Record) :=
  if content.all isBlankByte then some [] else (Json.readBytes? content).bind listOfJson?

end Record

end Telemetry.Backup

-- SUMMARY: Records on the wire and their JSON text.
import Telemetry.Json.Reader
import Telemetry.Json.Writer
import Telemetry.Text.Quoted

/-!
# Wire records

Agent and collector exchange metrics as records. A record names a metric and its type, and carries a
`delta` for a counter or a `value` for a gauge, and perhaps a signature. Parts that are absent are left
out of the text; reading takes `null` for an absent part, skips fields it does not know, and also
accepts the parts in order as an array, of which only the first two have to be there.
-/

namespace Telemetry.Wire

/-- A metric as it is sent. -/
structure Record where
  id : String
  type : String
  delta : Option Int64
  value : Option Binary64
  hash : Option String
  deriving DecidableEq

namespace Record

/-- A record that only asks for a metric. -/
def query (id type : String) : Record :=
  ⟨id, type, none, none, none⟩

def counter (id : String) (delta : Int64) : Record :=
  ⟨id, "counter", some delta, none, none⟩

def gauge (id : String) (value : Binary64) : Record :=
  ⟨id, "gauge", none, some value, none⟩

/-- The signature that the record carries; an empty one is none. -/
def signature? (r : Record) : Option String :=
  r.hash.filter fun hash => !hash.isEmpty

-- ---------------------------------------------------------------------------
-- Writing
-- ---------------------------------------------------------------------------

/-- The fields of a record in the order of the format. -/
def fields (r : Record) : List (String × String) :=
  [("id", Json.writeString r.id), ("type", Json.writeString r.type)]
    ++ (r.delta.map fun delta => ("delta", toString delta.toInt)).toList
    ++ (r.value.map fun value => ("value", Json.writeReal value)).toList
    ++ (r.hash.map fun hash => ("hash", Json.writeString hash)).toList

/-- The text of a record. -/
def write (r : Record) : String :=
  Json.compactObject r.fields

/-- The text of a list of records. -/
def writeAll (records : List Record) : String :=
  Json.compactArray (records.map write)

-- ---------------------------------------------------------------------------
-- Reading
-- ---------------------------------------------------------------------------

/-- A record from its five parts. -/
def ofParts? (id type delta value hash : Json) : Option Record := do
  let id ← id.text?
  let type ← type.text?
  let delta ← delta.optional? Json.int64?
  let value ← value.optional? Json.real?
  let hash ← hash.optional? Json.text?
  some ⟨id, type, delta, value, hash⟩

/-- A record from a JSON value. Every name of a field has to be a text, and no known one may be
    repeated. -/
def ofJson? : Json → Option Record
  | .object fields => do
    guard (fields.all (·.1.isSome))
    let id ← (← Json.field? "id" fields)
    let type ← (← Json.field? "type" fields)
    let delta ← Json.field? "delta" fields
    let value ← Json.field? "value" fields
    let hash ← Json.field? "hash" fields
    ofParts? id type (delta.getD .null) (value.getD .null) (hash.getD .null)
  | .array [id, type] => ofParts? id type .null .null .null
  | .array [id, type, delta] => ofParts? id type delta .null .null
  | .array [id, type, delta, value] => ofParts? id type delta value .null
  | .array [id, type, delta, value, hash] => ofParts? id type delta value hash
  | _ => none

/-- A list of records from a JSON value. -/
def listOfJson? : Json → Option (List Record)
  | .array items => items.mapM ofJson?
  | _ => none

-- ---------------------------------------------------------------------------
-- Diagnostics
-- ---------------------------------------------------------------------------

/-- An optional part in diagnostic output. -/
def debugOption {α : Type} (show_ : α → String) : Option α → String
  | none => "None"
  | some x => "Some(" ++ show_ x ++ ")"

/-- A record in diagnostic output. -/
def debug (r : Record) : String :=
  "WireRecord \x7b id: " ++ Text.quote r.id ++ ", mtype: " ++ Text.quote r.type ++ ", delta: "
    ++ debugOption (fun (d : Int64) => toString d.toInt) r.delta ++ ", value: "
    ++ debugOption (fun (v : Binary64) => v.write .debug) r.value ++ ", hash: "
    ++ debugOption Text.quote r.hash ++ " \x7d"

end Record

end Telemetry.Wire

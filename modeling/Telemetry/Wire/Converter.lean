-- SUMMARY: Converting metrics to signed wire records and back.
import Telemetry.Wire.Record
import Telemetry.Wire.Signer

/-!
# Conversion

A record is made of a metric and signed if there is a key. The other way, a record is checked part by
part, in a fixed order, and only then becomes a metric; with a key a signature has to be right, but it
need not be there.
-/

namespace Telemetry.Wire

/-- How metrics become records: with the signatures of a signer. -/
structure Converter where
  signer : Signer

namespace Converter

/-- The converter of a key. -/
def ofKey (key : String) : Converter :=
  ⟨.ofKey key⟩

/-- Records are signed. -/
def signs (c : Converter) : Bool :=
  c.signer.isEnabled

/-- The record of a metric without a signature. -/
def plainRecord (m : Metric) : Record :=
  match m.value with
  | .counter delta => .counter m.name delta
  | .gauge value => .gauge m.name value

/-- The record of a metric that is read twice: once for the value that is shown and once for the text
    that is signed. An update may come between the two readings. -/
def encodeReadings (c : Converter) (shown signed : Metric) : Outcome Record :=
  let record := plainRecord shown
  if c.signs then do
    let signature ← within "get signature string" (c.signer.signHex signed).1
    .ok { record with hash := some signature }
  else .ok record

/-- The record of a metric that nobody updates meanwhile. -/
def encode (c : Converter) (m : Metric) : Outcome Record :=
  c.encodeReadings m m

/-- The value that the type of a record selects. -/
def selectedValue (r : Record) : Kind → Option Value
  | .counter => r.delta.map .counter
  | .gauge => r.value.map .gauge

/-- The metric of a record, its signature left aside. -/
def readMetric (r : Record) : Outcome Metric := do
  if r.id.isEmpty then fail (.validation "metric id is empty")
  if r.type.isEmpty then fail (.validation "metric type is empty")
  let kind ← Kind.read r.type
  match selectedValue r kind with
  | some value => .ok ⟨r.id, value⟩
  | none => within "convert metric" (fail (.valueMissing r.id))

/-- Fail unless a signature is the one of a metric. -/
def checkSignature (c : Converter) (m : Metric) (signature : String) : Outcome Unit :=
  within "check signature" do
    let valid ← (c.signer.check m signature).1
    if valid then .ok () else fail (.invalidSignature m.name)

/-- The metric that a record stands for. -/
def decode (c : Converter) (r : Record) : Outcome Metric := do
  let m ← readMetric r
  match c.signs, r.signature? with
  | true, some signature => c.checkSignature m signature
  | _, _ => .ok ()
  .ok m

end Converter

end Telemetry.Wire

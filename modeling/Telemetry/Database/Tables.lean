-- SUMMARY: The two tables of the database: type names, and metrics that refer to them.
import Telemetry.Error
import Telemetry.Number.Binary64

/-!
# Tables

Values are kept in two tables. One gives a number to each type name, the other has a row for each metric
with its name, the number of its type and its value as a binary64 number. Rows are numbered in the order
in which they were first stored. An update writes a list of rows in one transaction.
-/

namespace Telemetry.Database

/-- A row as it goes in and comes out. Any part may be absent. -/
structure Row where
  type : Option String
  name : Option String
  value : Option Binary64
  deriving DecidableEq

/-- A row with all its parts. -/
structure FullRow where
  type : String
  name : String
  value : Binary64
  deriving DecidableEq

namespace Row

def ofFull (r : FullRow) : Row :=
  ⟨some r.type, some r.name, some r.value⟩

/-- All parts of a row, or the first that is absent. -/
def complete (r : Row) : Outcome FullRow :=
  match r.type, r.name, r.value with
  | none, _, _ => fail .recordType
  | some _, none, _ => fail .recordName
  | some _, some _, none => fail .recordValue
  | some type, some name, some value => .ok ⟨type, name, value⟩

end Row

/-- A type name and its number. -/
structure TypeEntry where
  id : Nat
  name : String
  deriving DecidableEq

/-- A metric, the number of its type, and the content of its value column. -/
structure MetricEntry where
  id : Nat
  name : String
  typeId : Nat
  value : Option Binary64
  deriving DecidableEq

/-- The rows of both tables in ascending order of their numbers, and the last number given in each. -/
structure Tables where
  types : List TypeEntry
  metrics : List MetricEntry
  lastType : Nat
  lastMetric : Nat
  deriving DecidableEq

/-- What a column of binary64 numbers keeps of a number: not-a-number is kept as an absent value, and the
    sign of zero is not kept. -/
def storedReal (x : Binary64) : Option Binary64 :=
  if x.isNan then none else some x.withPositiveZero

namespace Tables

/-- The tables without rows. -/
def empty : Tables := ⟨[], [], 0, 0⟩

-- ---------------------------------------------------------------------------
-- Writing
-- ---------------------------------------------------------------------------

/-- The number of a type name. -/
def findType? (t : Tables) (type : String) : Option Nat :=
  (t.types.find? (·.name == type)).map (·.id)

/-- The number of a type name, which gets one now if it has none. -/
def typeId (t : Tables) (type : String) : Nat × Tables :=
  match t.findType? type with
  | some id => (id, t)
  | none =>
    let id := t.lastType + 1
    (id, { t with types := t.types ++ [⟨id, type⟩], lastType := id })

/-- The row of this name and type. -/
def isRow (name : String) (typeId : Nat) (m : MetricEntry) : Bool :=
  m.name == name && m.typeId == typeId

/-- Write the value of a metric into its row, which is made if there is none. -/
def writeValue (t : Tables) (name : String) (typeId : Nat) (value : Binary64) : Tables :=
  if t.metrics.any (isRow name typeId) then
    { t with
      metrics := t.metrics.map fun m =>
        if isRow name typeId m then { m with value := storedReal value } else m }
  else
    let id := t.lastMetric + 1
    { t with metrics := t.metrics ++ [⟨id, name, typeId, storedReal value⟩], lastMetric := id }

/-- Write one complete row. -/
def upsert (t : Tables) (r : FullRow) : Tables :=
  let (typeId, t) := t.typeId r.type
  t.writeValue r.name typeId r.value

/-- Write rows one after the other, up to the first that is not complete. -/
def upsertAll (t : Tables) : List Row → Outcome Tables
  | [] => .ok t
  | r :: rest => do
    let full ← r.complete
    (t.upsert full).upsertAll rest

/-- Write rows in one transaction: all of them, or none if one is not complete. -/
def update (t : Tables) (rows : List Row) : Outcome Unit × Tables :=
  match t.upsertAll rows with
  | .ok t => (.ok (), t)
  | .error e => (.error e, t)

-- ---------------------------------------------------------------------------
-- Reading
-- ---------------------------------------------------------------------------

/-- The type name of a number. -/
def typeName? (t : Tables) (typeId : Nat) : Option String :=
  (t.types.find? (·.id == typeId)).map (·.name)

/-- A metric joined with its type name. -/
def join (t : Tables) (m : MetricEntry) : Row :=
  ⟨t.typeName? m.typeId, some m.name, m.value⟩

/-- All rows in the order in which they were first stored. -/
def rows (t : Tables) : List Row :=
  t.metrics.map t.join

/-- The row of a type and a name. -/
def row? (t : Tables) (type name : String) : Option Row :=
  t.rows.find? fun r => r.type == some type && r.name == some name

/-- Each type name with the names of its metrics, in the order in which they were first stored. -/
def byType (t : Tables) : List (String × List String) :=
  t.types.map fun type => (type.name, (t.metrics.filter (·.typeId == type.id)).map (·.name))

end Tables

end Telemetry.Database

-- SUMMARY: Snapshots of a store: the text of every value, filed by type and name.
import Telemetry.SortedMap

/-!
# Snapshots

A snapshot lists the values of a store as text, sorted by type and then by name. It is what backups keep
and what stores are restored from, so types and texts need not be ones that a store accepts.
-/

namespace Telemetry

/-- Type name to metric name to the text of the value. -/
abbrev Snapshot := SortedMap (SortedMap String)

/-- One value of a snapshot with its type and name. -/
structure Snapshot.Entry where
  type : String
  name : String
  value : String
  deriving DecidableEq, Repr

namespace Snapshot

/-- The text filed under a type and a name. -/
def value? (s : Snapshot) (type name : String) : Option String :=
  (SortedMap.find? s type).bind (·.find? name)

/-- The snapshot with one more entry, in place of one that stood there. -/
def put (s : Snapshot) (e : Entry) : Snapshot :=
  SortedMap.insert s e.type (((SortedMap.find? s e.type).getD .empty).insert e.name e.value)

/-- The snapshot of a list of entries; the last of several under one key counts. -/
def ofEntries (entries : List Entry) : Snapshot :=
  entries.foldl put SortedMap.empty

/-- All entries, by type and then by name. -/
def toEntries (s : Snapshot) : List Entry :=
  (SortedMap.entries s).flatMap fun (type, names) =>
    names.entries.map fun (name, value) => ⟨type, name, value⟩

end Snapshot

end Telemetry

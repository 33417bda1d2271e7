-- SUMMARY: The live store: shared metric instances filed by kind and name.
import Telemetry.Metric.Instances
import Telemetry.Snapshot

/-!
# The memory store

The store files handles of shared instances under the kind and the name of their metric. Adding a metric
under a new key stores the given instance itself; under a known key it updates the stored one. Restoring
a snapshot replaces all instances or none.
-/

namespace Telemetry

/-- The stored instances of either kind by name. -/
structure MemoryStore where
  counters : SortedMap Handle
  gauges : SortedMap Handle

namespace MemoryStore

/-- The store without metrics. -/
def empty : MemoryStore := ⟨.empty, .empty⟩

instance : Inhabited MemoryStore := ⟨empty⟩

/-- The instances of a kind. -/
def ofKind (s : MemoryStore) : Kind → SortedMap Handle
  | .counter => s.counters
  | .gauge => s.gauges

/-- The instance under a key. -/
def find? (s : MemoryStore) (kind : Kind) (name : String) : Option Handle :=
  (s.ofKind kind).find? name

/-- File an instance under a key. -/
def put (s : MemoryStore) (kind : Kind) (name : String) (h : Handle) : MemoryStore :=
  match kind with
  | .counter => { s with counters := s.counters.insert name h }
  | .gauge => { s with gauges := s.gauges.insert name h }

/-- The number of stored metrics. -/
def size (s : MemoryStore) : Nat :=
  s.counters.size + s.gauges.size

-- ---------------------------------------------------------------------------
-- Adding
-- ---------------------------------------------------------------------------

/-- Add one instance. The result is the instance that stands under its key afterwards. -/
def addOne (s : MemoryStore) (t : Instances) (h : Handle) : Handle × MemoryStore × Instances :=
  match t.get? h with
  | none => (h, s, t)
  | some m =>
    match s.find? m.kind m.name with
    | some stored => (stored, s, t.update stored (Value.apply m.value))
    | none => (h, s.put m.kind m.name h, t)

/-- Add instances one after the other. The results are the stored instances in the same order. -/
def add (s : MemoryStore) (t : Instances) : List Handle → List Handle × MemoryStore × Instances
  | [] => ([], s, t)
  | h :: rest =>
    let (stored, s, t) := s.addOne t h
    let (others, s, t) := s.add t rest
    (stored :: others, s, t)

-- ---------------------------------------------------------------------------
-- Reading
-- ---------------------------------------------------------------------------

/-- The entries of one kind in the order of the names. -/
def entriesOfKind (s : MemoryStore) (t : Instances) (kind : Kind) : List Snapshot.Entry :=
  (s.ofKind kind).entries.filterMap fun (name, h) =>
    (t.get? h).map fun m => ⟨kind.name, name, m.value.text⟩

/-- The text of every stored value. -/
def snapshot (s : MemoryStore) (t : Instances) : Snapshot :=
  .ofEntries (s.entriesOfKind t .counter ++ s.entriesOfKind t .gauge)

/-- The instance under a type name and a name. -/
def get (s : MemoryStore) (type name : String) : Outcome Handle :=
  match (Kind.ofName? type).bind (s.find? · name) with
  | some h => .ok h
  | none => fail (.notFound type name)

-- ---------------------------------------------------------------------------
-- Restoring
-- ---------------------------------------------------------------------------

/-- Read the values of one type of a snapshot. -/
def readType (type : String) (kind : Kind) : List (String × String) → Outcome (List Metric)
  | [] => .ok []
  | (name, raw) :: rest => do
    let value ← within ("parse value of " ++ type ++ "/" ++ name) (Value.read kind raw)
    let others ← readType type kind rest
    .ok (⟨name, value⟩ :: others)

/-- Read the values of a snapshot, type by type. A type is checked before its values. -/
def readSnapshot : List (String × SortedMap String) → Outcome (List Metric)
  | [] => .ok []
  | (type, names) :: rest => do
    let kind ← within ("handle backup metric with type '" ++ type ++ "'") (Kind.read type)
    let metrics ← readType type kind names.entries
    let others ← readSnapshot rest
    .ok (metrics ++ others)

/-- File new instances of the given metrics in an empty store. -/
def ofMetrics (t : Instances) (metrics : List Metric) : MemoryStore × Instances :=
  metrics.foldl
    (fun (s, t) m =>
      let (h, t) := t.alloc m
      (s.put m.kind m.name h, t))
    (empty, t)

/-- The store that a snapshot describes, made of new instances. -/
def restore (t : Instances) (snapshot : Snapshot) : Outcome (MemoryStore × Instances) := do
  let metrics ← readSnapshot (SortedMap.entries snapshot)
  .ok (ofMetrics t metrics)

end MemoryStore

end Telemetry

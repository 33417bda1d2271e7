-- SUMMARY: What a backup needs of a relational database, and a scripted database that logs its calls.
import Telemetry.Database.Tables

/-!
# Relational databases

The operations of a database over some state. Every operation may fail and may change the state. The
scripted database answers with fixed rows, or with a fixed failure, and lists the calls it got.
-/

namespace Telemetry.Database

/-- The operations of a database whose state is `σ`. -/
structure Relational (σ : Type) where
  /-- Write rows in one transaction. -/
  update : List Row → σ → Outcome Unit × σ
  /-- The row of a type and a name. -/
  readOne : (type name : String) → σ → Outcome (Option Row) × σ
  /-- All rows in the order in which they were first stored. -/
  readAll : σ → Outcome (List Row) × σ
  ping : σ → Outcome Unit × σ
  close : σ → Outcome Unit × σ

-- ---------------------------------------------------------------------------
-- Scripted databases
-- ---------------------------------------------------------------------------

/-- A call of a database operation. -/
inductive Call where
  | update (rows : List Row)
  | readOne (type name : String)
  | readAll
  | ping
  | close
  deriving DecidableEq

/-- A database that answers from a script, and the calls it got so far, the last first. -/
structure Scripted where
  rows : List Row
  failure : Option String
  calls : List Call

namespace Scripted

/-- Log a call and answer it. -/
def answer {α : Type} (call : Call) (result : α) (s : Scripted) : Outcome α × Scripted :=
  let s := { s with calls := call :: s.calls }
  match s.failure with
  | some message => (fail (.storage message), s)
  | none => (.ok result, s)

/-- The operations of a scripted database. A look-up gets the first row whatever it asks for. -/
def relational : Relational Scripted where
  update rows := answer (.update rows) ()
  readOne type name s := answer (.readOne type name) s.rows.head? s
  readAll s := answer .readAll s.rows s
  ping := answer .ping ()
  close := answer .close ()

end Scripted

end Telemetry.Database

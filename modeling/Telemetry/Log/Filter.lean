-- SUMMARY: Which events get into the log: directives for targets and their levels.
import Telemetry.Log.Level
import Telemetry.Text.Blank

/-!
# Log filters

A filter is a list of directives. A directive may name a target and a level. For an event the directive
decides whose target is the longest beginning of the target of the event; a directive without a target
is shorter than any other. Events for which no directive speaks are left out.
-/

namespace Telemetry.Log

/-- Up to which level events of a target are admitted. -/
structure Directive where
  /-- Targets that begin with this text, or all targets. -/
  target : Option String
  /-- The rank of the level; zero admits nothing. -/
  rank : Nat
  deriving DecidableEq, Repr

/-- A list of directives; of several for one target the last counts. -/
structure Filter where
  directives : List Directive
  deriving DecidableEq, Repr

namespace Directive

/-- The rank that a text names in any case. -/
def readRank? (text : String) : Option Nat :=
  let lower := text.toLower
  match lower with
  | "off" | "0" => some 0
  | "1" => some 1
  | "2" => some 2
  | "3" => some 3
  | "4" => some 4
  | "5" => some 5
  | _ => (Level.ofName? lower).map Level.rank

/-- The character may begin a directive. -/
def mayBegin (c : Char) : Bool :=
  c = '-' || c = ':' || c = '_' || c.isAlphanum || 0x80 ≤ c.toNat

/-- Read a directive: a level, a target, or a target and a level. -/
def read? (text : String) : Option Directive :=
  match (Text.trim text).toList with
  | [] => some ⟨none, Level.trace.rank⟩
  | first :: rest =>
    if !mayBegin first then none
    else
      match (first :: rest).span (· ≠ '=') with
      | (target, []) =>
        match readRank? (.ofList target) with
        | some rank => some ⟨none, rank⟩
        | none => some ⟨some (.ofList target), Level.trace.rank⟩
      | (target, [_]) => some ⟨some (.ofList target), Level.trace.rank⟩
      | (target, _ :: level) =>
        (readRank? (.ofList level)).map fun rank => ⟨some (.ofList target), rank⟩

/-- The directive speaks for a target. -/
def speaksFor (d : Directive) (target : String) : Bool :=
  d.target.elim true fun start => target.startsWith start

/-- How exactly a directive names its targets. -/
def precision (d : Directive) : Nat :=
  d.target.elim 0 fun start => start.length + 1

end Directive

namespace Filter

/-- Read a filter: directives separated by commas. The empty text has none. -/
def read? (text : String) : Option Filter :=
  if text.isEmpty then some ⟨[]⟩ else ((text.splitOn ",").mapM Directive.read?).map (⟨·⟩)

/-- The directive that decides about a target. -/
def decider? (f : Filter) (target : String) : Option Directive :=
  (f.directives.filter (·.speaksFor target)).foldl
    (fun best d =>
      match best with
      | some b => if b.precision ≤ d.precision then some d else some b
      | none => some d)
    none

/-- An event of a target and a level gets into the log. -/
def admits (f : Filter) (target : String) (level : Level) : Bool :=
  (f.decider? target).elim false fun d => level.rank ≤ d.rank

/-- The level of the libraries that write much. -/
def quietLevel : Level → Level
  | .trace | .debug => .info
  | _ => .warn

/-- The text of the filter for a level. -/
def defaultText (level : Level) : String :=
  String.intercalate ","
    (level.name :: ["sqlx", "sea_orm", "hyper", "reqwest"].map fun target =>
      target ++ "=" ++ (quietLevel level).name)

end Filter

end Telemetry.Log

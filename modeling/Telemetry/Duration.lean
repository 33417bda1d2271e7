-- SUMMARY: Lengths of time and their texts.
import Telemetry.Number.Notation

/-!
# Durations

A duration is a number of nanoseconds. Its rounded text has whole milliseconds below one second, and
seconds with two places otherwise. Its exact text has the greatest unit that fits and as many places as
it takes.
-/

namespace Telemetry

-- Powers of natural numbers are the plain ones, whatever algebra is in scope.
attribute [local instance (2000)] instPowNat instNatPowNat

/-- A length of time in nanoseconds. -/
structure Duration where
  nanos : Nat
  deriving DecidableEq, Repr

namespace Duration

def ofSeconds (seconds : Nat) : Duration := ⟨seconds * 1_000_000_000⟩

def ofMillis (millis : Nat) : Duration := ⟨millis * 1_000_000⟩

/-- Whole milliseconds. -/
def millis (d : Duration) : Nat := d.nanos / 1_000_000

/-- The seconds as a number: the whole seconds and the rest are rounded before they are added. -/
def seconds (d : Duration) : Binary64 :=
  match Binary64.ofNat (d.nanos / 1_000_000_000),
    Binary64.ofRatio false (d.nanos % 1_000_000_000) 1_000_000_000 with
  | .signed _ whole, .signed _ rest => .addMagnitudes whole rest
  | _, _ => .nan

/-- The rounded text of a duration. -/
def rounded (d : Duration) : String :=
  if d.millis < 1000 then toString d.millis ++ "ms" else d.seconds.fixed 2 ++ "s"

/-- A number of units of `10 ^ places` nanoseconds, with the places that are not zero at the end. -/
def inUnits (d : Duration) (places : Nat) : String :=
  let digits := toString (d.nanos % 10 ^ places)
  let padded := List.replicate (places - digits.length) '0' ++ digits.toList
  let kept := (padded.reverse.dropWhile (· = '0')).reverse
  toString (d.nanos / 10 ^ places) ++ (if kept.isEmpty then "" else "." ++ String.ofList kept)

/-- The exact text of a duration. -/
def exact (d : Duration) : String :=
  if 1_000_000_000 ≤ d.nanos then d.inUnits 9 ++ "s"
  else if 1_000_000 ≤ d.nanos then d.inUnits 6 ++ "ms"
  else if 1_000 ≤ d.nanos then d.inUnits 3 ++ "µs"
  else d.inUnits 0 ++ "ns"

end Duration

end Telemetry

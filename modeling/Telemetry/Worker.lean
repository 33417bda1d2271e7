-- SUMMARY: Workers: jobs that are run again and again, one interval apart.
import Telemetry.Error

/-!
# Workers

A worker runs its job for the first time one interval after it starts, and then once per interval. A run
that takes long makes the next one late. A run that is a little late keeps the schedule; one that is late
by more than the tolerance starts the schedule anew.
-/

namespace Telemetry

/-- A job with a name and the milliseconds between two runs. -/
structure Worker where
  name : String
  interval : Nat
  interval_pos : 0 < interval

namespace Worker

/-- A worker; there has to be time between two runs. -/
def make (name : String) (interval : Nat) : Outcome Worker :=
  if h : 0 < interval then .ok ⟨name, interval, h⟩
  else fail (.config (name ++ " interval must be greater than zero"))

/-- The milliseconds by which a run may be late without a change of the schedule. -/
def tolerance : Nat := 5

/-- When the next run is due, and when the run before it ends, in milliseconds since the start. -/
structure Schedule where
  due : Nat
  idle : Nat
  deriving DecidableEq, Repr

namespace Schedule

/-- The time at which the next run starts. -/
def start (s : Schedule) : Nat := max s.due s.idle

end Schedule

/-- The schedule before the first run. -/
def first (w : Worker) : Schedule := ⟨w.interval, 0⟩

/-- The schedule after a run that takes a number of milliseconds. -/
def after (w : Worker) (s : Schedule) (taken : Nat) : Schedule where
  due := (if tolerance < s.start - s.due then s.start else s.due) + w.interval
  idle := s.start + taken

theorem due_lt_after (w : Worker) (s : Schedule) (taken : Nat) : s.due < (w.after s taken).due := by
  have hw := w.interval_pos
  have hs : s.due ≤ s.start := Nat.le_max_left ..
  simp only [after]
  split <;> omega

/-- The times at which runs start before the worker is stopped. The runs take the listed milliseconds,
    those beyond the list none. -/
def startsFrom (w : Worker) (stop : Nat) (taken : List Nat) (s : Schedule) : List Nat :=
  if s.start < stop then
    s.start :: w.startsFrom stop taken.tail (w.after s (taken.headD 0))
  else []
termination_by stop - s.due
decreasing_by
  have := w.due_lt_after s (taken.headD 0)
  have : s.due ≤ s.start := Nat.le_max_left ..
  omega

/-- The times at which runs start before the worker is stopped. -/
def starts (w : Worker) (stop : Nat) (taken : List Nat) : List Nat :=
  w.startsFrom stop taken w.first

end Worker

end Telemetry

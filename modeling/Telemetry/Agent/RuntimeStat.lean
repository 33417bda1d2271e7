-- SUMMARY: The statistics of a process that an agent can report.
import Telemetry.Error
import Telemetry.Number.Binary64

/-!
# Process statistics

Each statistic has a name, under which it is configured and reported, and reads one part of a sample.
-/

namespace Telemetry.Agent

/-- What is measured of a process at one time. -/
structure ProcessSample where
  residentMemory : Nat
  virtualMemory : Nat
  cpuPercent : Binary64
  diskReadBytes : Nat
  diskWrittenBytes : Nat
  /-- Seconds since the process started. -/
  runTime : Nat
  /-- The start of the process in seconds since 1970. -/
  startTime : Nat
  deriving DecidableEq

/-- A statistic of a process. -/
inductive RuntimeStat where
  | alloc
  | sys
  | cpuPercent
  | diskRead
  | diskWritten
  | uptime
  | startTime
  deriving DecidableEq, Repr

namespace RuntimeStat

/-- All statistics in the order in which they are listed. -/
def all : List RuntimeStat :=
  [alloc, sys, cpuPercent, diskRead, diskWritten, uptime, startTime]

def name : RuntimeStat → String
  | alloc => "Alloc"
  | sys => "Sys"
  | cpuPercent => "CPUPercent"
  | diskRead => "DiskRead"
  | diskWritten => "DiskWritten"
  | uptime => "Uptime"
  | startTime => "StartTime"

/-- The statistic with a name. -/
def ofName? (name : String) : Option RuntimeStat :=
  all.find? fun stat => stat.name == name

/-- The statistic that a configured name stands for. -/
def read (name : String) : Outcome RuntimeStat :=
  match ofName? name with
  | some stat => .ok stat
  | none => fail (.unknownStat name)

/-- The value of a statistic in a sample. -/
def valueIn (stat : RuntimeStat) (s : ProcessSample) : Binary64 :=
  match stat with
  | alloc => .ofNat s.residentMemory
  | sys => .ofNat s.virtualMemory
  | cpuPercent => s.cpuPercent
  | diskRead => .ofNat s.diskReadBytes
  | diskWritten => .ofNat s.diskWrittenBytes
  | uptime => .ofNat s.runTime
  | startTime => .ofNat s.startTime

end RuntimeStat

end Telemetry.Agent

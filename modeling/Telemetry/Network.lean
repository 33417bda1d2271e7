-- SUMMARY: The addresses of this machine at which a program can listen.
import Telemetry.Number.Reading

/-!
# The network

An address is a host and a port. A program can listen at an address of this machine as long as no other
program does.
-/

namespace Telemetry

/-- The addresses at which other programs listen. -/
structure Network where
  taken : List String

/-- Why an address cannot be listened at. -/
inductive BindFault where
  | inUse
  | unusable
  deriving DecidableEq, Repr

namespace Network

/-- The names and addresses that stand for this machine. -/
def localHosts : List String :=
  ["localhost", "0.0.0.0", "[::1]", "[::]"]

/-- The host stands for this machine: one of its names, or an address that begins with 127. -/
def isLocal (host : String) : Bool :=
  match host.splitOn "." with
  | ["127", a, b, c] => [a, b, c].all fun part => (readNatural 8 part).toOption.isSome
  | _ => localHosts.contains host

/-- Host and port of an address. -/
def splitAddress? (address : String) : Option (String × Nat) :=
  match (address.splitOn ":").reverse with
  | port :: rest@(_ :: _) =>
    (readNatural 16 port).toOption.map fun port => (String.intercalate ":" rest.reverse, port)
  | _ => none

/-- Listen at an address. -/
def bind (n : Network) (address : String) : Except BindFault Unit :=
  if n.taken.contains address then .error .inUse
  else
    match splitAddress? address with
    | some (host, _) => if isLocal host then .ok () else .error .unusable
    | none => .error .unusable

end Network

end Telemetry

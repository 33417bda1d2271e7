-- SUMMARY: Hosts of URLs: domain names and addresses of both versions in their canonical forms.
import Telemetry.Text.Utf8
import Telemetry.Url.Domain
import Telemetry.Url.Percent

/-!
# Hosts

The host of a URL is a domain name or an address. A name whose last label is a number is an address of
version 4, whose parts may be decimal, octal or hexadecimal and may be fewer than four. An address of
version 6 stands in brackets and is written with its longest run of zeros left out. Names are brought to
ASCII by a conversion that the reader is given.
-/

namespace Telemetry.Url

-- Powers of natural numbers are the plain ones, whatever algebra is in scope.
attribute [local instance (2000)] instPowNat instNatPowNat

/-- Why a text is no URL. -/
inductive Fault where
  | emptyHost
  | invalidPort
  | invalidAddress4
  | invalidAddress6
  | invalidDomain
  | invalidDomainCharacter
  | noScheme
  deriving DecidableEq, Repr

def Fault.message : Fault → String
  | emptyHost => "empty host"
  | invalidPort => "invalid port number"
  | invalidAddress4 => "invalid IPv4 address"
  | invalidAddress6 => "invalid IPv6 address"
  | invalidDomain => "invalid international domain name"
  | invalidDomainCharacter => "invalid domain character"
  | noScheme => "relative URL without a base"

namespace Host

/-- The value of a run of digits of a base, if all of them are. -/
def digitsOfBase? (base : Nat) (digits : List Char) : Option Nat :=
  digits.foldlM
    (fun acc c =>
      match Hex.digitValue? (UInt8.ofNat (min c.toNat 255)) with
      | some d => if d < base then some (acc * base + d) else none
      | none => none)
    0

-- ---------------------------------------------------------------------------
-- Version 4
-- ---------------------------------------------------------------------------

/-- The value of a part of an address of version 4: `0x` marks a hexadecimal number, a zero in front an
    octal one, and nothing after the mark is zero. -/
def numberPart? : List Char → Option Nat
  | [] => none
  | '0' :: 'x' :: digits | '0' :: 'X' :: digits => digitsOfBase? 16 digits
  | '0' :: d :: digits => digitsOfBase? 8 (d :: digits)
  | digits => digitsOfBase? 10 digits

/-- The parts of a name without an empty one at the end. -/
def addressParts (name : List Char) : List (List Char) :=
  let parts := name.splitOn '.'
  match parts.reverse with
  | [] :: before@(_ :: _) => before.reverse
  | _ => parts

/-- The name is to be read as an address of version 4. -/
def endsInNumber (name : List Char) : Bool :=
  match (addressParts name).getLast? with
  | some last => (!last.isEmpty && last.all Char.isDigit) || (numberPart? last).isSome
  | none => false

/-- The number of an address of version 4. The last part fills all the bytes that are left. -/
def address4? (name : List Char) : Option Nat := do
  let parts := addressParts name
  guard (parts.length ≤ 4)
  let numbers ← parts.mapM numberPart?
  let last ← numbers.getLast?
  let first := numbers.dropLast
  let free := 256 ^ (4 - first.length)
  guard (last < free && first.all (· < 256))
  some (first.foldl (fun acc n => 256 * acc + n) 0 * free + last)

/-- An address of version 4 in four decimal parts. -/
def writeAddress4 (address : Nat) : String :=
  String.intercalate "." ([3, 2, 1, 0].map fun (i : Nat) => toString (address / 256 ^ i % 256))

-- ---------------------------------------------------------------------------
-- Version 6
-- ---------------------------------------------------------------------------

/-- The value of a group of up to four hexadecimal digits. -/
def group? (digits : List Char) : Option Nat :=
  if digits.isEmpty || 4 < digits.length then none else digitsOfBase? 16 digits

/-- A decimal byte of an embedded address of version 4: no zero in front. -/
def byte? (digits : List Char) : Option Nat :=
  match digits with
  | '0' :: _ :: _ => none
  | [] => none
  | _ => if digits.all Char.isDigit then (digitsOfBase? 10 digits).filter (· < 256) else none

/-- The two groups of an embedded address of version 4. -/
def embedded? (text : List Char) : Option (List Nat) := do
  match ← (text.splitOn '.').mapM byte? with
  | [a, b, c, d] => some [a * 256 + b, c * 256 + d]
  | _ => none

/-- The groups of one side of an address; only the last may be an embedded address, and only if nothing
    follows. -/
def groups? (mayEmbed : Bool) : List (List Char) → Option (List Nat)
  | [] => some []
  | [last] =>
    if mayEmbed && last.contains '.' then embedded? last else (group? last).map ([·])
  | part :: rest => do
    let g ← group? part
    let others ← groups? mayEmbed rest
    some (g :: others)

/-- The groups of a side that may be empty. -/
def side? (mayEmbed : Bool) (text : List Char) : Option (List Nat) :=
  if text.isEmpty then some [] else groups? mayEmbed (text.splitOn ':')

/-- The text before and after the first pair of colons. -/
def splitGap? : List Char → Option (List Char × List Char)
  | ':' :: ':' :: rest => some ([], rest)
  | c :: rest => (splitGap? rest).map fun (before, after) => (c :: before, after)
  | [] => none

/-- The eight groups of an address of version 6. A pair of colons stands for at least one group of
    zeros. -/
def address6? (text : List Char) : Option (List Nat) :=
  match splitGap? text with
  | none => (side? true text).filter (·.length = 8)
  | some (before, after) => do
    let front ← side? false before
    let back ← side? true after
    guard (front.length + back.length ≤ 7)
    some (front ++ List.replicate (8 - front.length - back.length) 0 ++ back)

/-- The length of the run of zeros at the head. -/
def zeroRun (groups : List Nat) : Nat :=
  (groups.takeWhile (· = 0)).length

/-- Where the first of the longest runs of zeros begins and how long it is. -/
def longestRun (groups : List Nat) : Nat × Nat :=
  (List.range groups.length).foldl
    (fun best i =>
      let run := zeroRun (groups.drop i)
      if best.2 < run then (i, run) else best)
    (0, 0)

def writeGroups (groups : List Nat) : String :=
  String.intercalate ":" (groups.map fun g => String.ofList (Nat.toDigits 16 g))

/-- An address of version 6 with its longest run of at least two zero groups left out. -/
def writeAddress6 (groups : List Nat) : String :=
  let (start, length) := longestRun groups
  if length < 2 then "[" ++ writeGroups groups ++ "]"
  else
    "[" ++ writeGroups (groups.take start) ++ "::" ++ writeGroups (groups.drop (start + length)) ++ "]"

-- ---------------------------------------------------------------------------
-- Hosts
-- ---------------------------------------------------------------------------

/-- The canonical text of a host of a web address. -/
def read (toAscii? : ToAscii) (text : List Char) : Except Fault String :=
  match text with
  | [] => .error .emptyHost
  | '[' :: rest =>
    if rest.getLast? = some ']' then
      match address6? rest.dropLast with
      | some groups => .ok (writeAddress6 groups)
      | none => .error .invalidAddress6
    else .error .invalidAddress6
  | _ =>
    let bytes := percentDecode (fun _ => false) (String.ofList text).toUTF8.toList
    match (Utf8.decode? bytes).bind fun name => toAscii? name.toList with
    | none => .error .invalidDomain
    | some [] => .error .emptyHost
    | some name =>
      if endsInNumber name then
        match address4? name with
        | some address => .ok (writeAddress4 address)
        | none => .error .invalidAddress4
      else .ok (String.ofList name)

/-- The characters that no host may hold, whatever the scheme. -/
def isForbidden (c : Char) : Bool :=
  ['\x00', '\t', '\n', '\r', ' ', '#', '/', ':', '<', '>', '?', '@', '[', '\\', ']', '^',
    '|'].contains c

/-- The text of a host of a scheme that has no rules for hosts of its own. -/
def readOpaque (text : List Char) : Except Fault String :=
  match text with
  | '[' :: rest =>
    if rest.getLast? = some ']' then
      match address6? rest.dropLast with
      | some groups => .ok (writeAddress6 groups)
      | none => .error .invalidAddress6
    else .error .invalidAddress6
  | _ =>
    if text.any isForbidden then .error .invalidDomainCharacter
    else
      .ok (String.ofList (text.flatMap fun c =>
        if c.toNat < 0x20 || 0x7f ≤ c.toNat then c.toString.toUTF8.toList.flatMap percentByte
        else [c]))

end Host

end Telemetry.Url

-- SUMMARY: Hexadecimal text of bytes, written in lower case and read in either case.
import Telemetry.Text.Quoted

/-!
# Hexadecimal text

Two digits for each byte, the high half first. Reading takes digits of either case and names the
first fault: an odd number of digits before any single bad digit.
-/

namespace Telemetry

/-- Why a text is no hexadecimal text of bytes. -/
inductive HexFault where
  | oddLength
  /-- The byte at a position is no digit; it is shown as the character of that number. -/
  | badDigit (byte : UInt8) (position : Nat)
  deriving DecidableEq, Repr

def HexFault.message : HexFault → String
  | oddLength => "Odd number of digits"
  | badDigit byte position =>
    "Invalid character " ++ Text.quoteChar (Char.ofNat byte.toNat) ++ " at position "
      ++ toString position

namespace Hex

/-- The digit of a number below sixteen. -/
def digit (n : Nat) : Char :=
  if n < 10 then Char.ofNat ('0'.toNat + n) else Char.ofNat ('a'.toNat + (n - 10))

/-- The value of a digit, given as a byte. -/
def digitValue? (byte : UInt8) : Option Nat :=
  let n := byte.toNat
  if 48 ≤ n && n ≤ 57 then some (n - 48)
  else if 97 ≤ n && n ≤ 102 then some (n - 87)
  else if 65 ≤ n && n ≤ 70 then some (n - 55)
  else none

/-- The digits of a byte, high half first. -/
def encodeByte (byte : UInt8) : List Char :=
  [digit (byte.toNat / 16), digit (byte.toNat % 16)]

/-- Bytes as lower-case hexadecimal text. -/
def encode (bytes : List UInt8) : String :=
  String.ofList (bytes.flatMap encodeByte)

/-- Read pairs of digits, the first of them standing at `position`. -/
def decodePairs : List UInt8 → (position : Nat) → Except HexFault (List UInt8)
  | high :: low :: rest, position =>
    match digitValue? high, digitValue? low with
    | none, _ => .error (.badDigit high position)
    | some _, none => .error (.badDigit low (position + 1))
    | some h, some l => (decodePairs rest (position + 2)).map (UInt8.ofNat (h * 16 + l) :: ·)
  | _, _ => .ok []

/-- The bytes that a hexadecimal text stands for. -/
def decode (text : String) : Except HexFault (List UInt8) :=
  let bytes := text.toUTF8.toList
  if bytes.length % 2 = 1 then .error .oddLength else decodePairs bytes 0

end Hex

end Telemetry

-- SUMMARY: Percent-encoding of characters in the parts of a URL, and decoding.
import Telemetry.Text.Hex

/-!
# Percent-encoding

A character that may not stand in a part of a URL is written as its UTF-8 bytes, each as a percent sign
and two hexadecimal digits. Which ASCII characters are affected depends on the part; control characters
and all characters beyond ASCII always are.
-/

namespace Telemetry.Url

/-- The parts of a URL that have their own sets of encoded characters. -/
inductive Part where
  | fragment
  | query
  | path
  /-- One segment of a path, added as a whole. -/
  | segment
  | userinfo
  deriving DecidableEq, Repr

/-- The printable ASCII characters that are encoded in a part. -/
def Part.reserved : Part → List Char
  | fragment => [' ', '"', '<', '>', '\x60']
  | query => [' ', '"', '#', '<', '>', '\x27']
  | path => [' ', '"', '<', '>', '\x60', '#', '?', '\x7b', '\x7d']
  | segment => [' ', '"', '<', '>', '\x60', '#', '?', '\x7b', '\x7d', '/', '%', '\\']
  | userinfo =>
    [' ', '"', '<', '>', '\x60', '#', '?', '\x7b', '\x7d', '/', ':', ';', '=', '@', '[', '\\',
      ']', '^', '|']

/-- The character is encoded in a part. -/
def Part.encodes (part : Part) (c : Char) : Bool :=
  c.toNat < 0x20 || 0x7f ≤ c.toNat || part.reserved.contains c

/-- A byte as a percent sign and two digits. -/
def percentByte (byte : UInt8) : List Char :=
  '%' :: (Hex.encodeByte byte).map Char.toUpper

/-- A character as it stands in a part. -/
def encodeChar (part : Part) (c : Char) : List Char :=
  if part.encodes c then c.toString.toUTF8.toList.flatMap percentByte else [c]

/-- A text as it stands in a part. -/
def encodePart (part : Part) (text : List Char) : String :=
  String.ofList (text.flatMap (encodeChar part))

/-- The bytes that percent-encoded bytes stand for, except for escapes of the bytes that `keep` holds
    of; these and malformed escapes stay as they are. -/
def percentDecode (keep : UInt8 → Bool) : List UInt8 → List UInt8
  | 0x25 :: high :: low :: rest =>
    match Hex.digitValue? high, Hex.digitValue? low with
    | some h, some l =>
      let byte := UInt8.ofNat (h * 16 + l)
      if keep byte then 0x25 :: percentDecode keep (high :: low :: rest)
      else byte :: percentDecode keep rest
    | _, _ => 0x25 :: percentDecode keep (high :: low :: rest)
  | byte :: rest => byte :: percentDecode keep rest
  | [] => []

end Telemetry.Url

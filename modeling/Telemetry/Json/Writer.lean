-- SUMMARY: Writing JSON text: strings, numbers, and compact or indented containers.
import Telemetry.Number.Notation

/-!
# Writing JSON

Strings escape the two characters that need it and the control characters; numbers use the record
notation. Containers are written without blanks for the wire, and with two spaces of indentation for
files.
-/

namespace Telemetry.Json

/-- The two hexadecimal digits of a control character. -/
def controlDigits (n : Nat) : String :=
  let digits := Nat.toDigits 16 n
  String.ofList (List.replicate (2 - digits.length) '0' ++ digits)

/-- A character inside a string. -/
def escapeChar (c : Char) : String :=
  if c = '"' then "\\\""
  else if c = '\\' then "\\\\"
  else if c = '\x08' then "\\b"
  else if c = '\x0c' then "\\f"
  else if c = '\n' then "\\n"
  else if c = '\r' then "\\r"
  else if c = '\t' then "\\t"
  else if c.toNat < 0x20 then "\\u00" ++ controlDigits c.toNat
  else c.toString

/-- A string with its quotes. -/
def writeString (text : String) : String :=
  "\"" ++ String.join (text.toList.map escapeChar) ++ "\""

/-- A number; there is none for what is not finite. -/
def writeReal (x : Binary64) : String :=
  if x.isFinite then x.write .record else "null"

/-- A field of an object on one line. -/
def writeField (name value : String) : String :=
  writeString name ++ ":" ++ value

/-- An object without blanks. -/
def compactObject (fields : List (String × String)) : String :=
  "\x7b" ++ String.intercalate "," (fields.map fun (name, value) => writeField name value) ++ "\x7d"

/-- An array without blanks. -/
def compactArray (items : List String) : String :=
  "[" ++ String.intercalate "," items ++ "]"

/-- So many steps of indentation. -/
def indentation (depth : Nat) : String :=
  String.ofList (List.replicate (2 * depth) ' ')

/-- A container with one part on each line, closed at the indentation of its own line. -/
def indentedParts (depth : Nat) (first last : String) (parts : List String) : String :=
  if parts.isEmpty then first ++ last
  else
    first ++ "\n"
      ++ String.intercalate ",\n" (parts.map fun part => indentation (depth + 1) ++ part)
      ++ "\n" ++ indentation depth ++ last

/-- An object with a field on each line. -/
def indentedObject (depth : Nat) (fields : List (String × String)) : String :=
  indentedParts depth "\x7b" "\x7d"
    (fields.map fun (name, value) => writeString name ++ ": " ++ value)

/-- An array with an item on each line. -/
def indentedArray (depth : Nat) (items : List String) : String :=
  indentedParts depth "[" "]" items

end Telemetry.Json

-- SUMMARY: Quoted text: how a raw text or character is shown inside a message.
import Telemetry.Text.Unprinted

/-!
# Quoted text

Messages that show a raw text put it between quotes. Quotes, backslashes and the common control
characters have short escapes, and every other character without a printed form is shown by its
number in hexadecimal.
-/

namespace Telemetry.Text

/-- A natural number in lower-case hexadecimal. -/
def hexNumber (n : Nat) : String :=
  String.ofList (Nat.toDigits 16 n)

/-- A character inside a text that is closed by `closing`. -/
def escapeChar (closing c : Char) : String :=
  if c = '\n' then "\\n"
  else if c = '\t' then "\\t"
  else if c = '\r' then "\\r"
  else if c = '\x00' then "\\0"
  else if c = '\\' then "\\\\"
  else if c = closing then String.ofList ['\\', c]
  else if isUnprinted c || isExtender c then "\\u\x7b" ++ hexNumber c.toNat ++ "\x7d"
  else c.toString

/-- A text between double quotes. -/
def quote (text : String) : String :=
  "\"" ++ String.join (text.toList.map (escapeChar '"')) ++ "\""

/-- A character between single quotes. -/
def quoteChar (c : Char) : String :=
  "'" ++ escapeChar '\x27' c ++ "'"

end Telemetry.Text

-- SUMMARY: Reading JSON text: strict syntax, any nesting, nothing but blanks around the value.
import Telemetry.Json.Basic
import Telemetry.Number.Reading
import Telemetry.Text.Utf8

/-!
# Reading JSON

The input is a list of symbols: characters, and `none` for parts that are no well-formed UTF-8. Such a
part may stand only inside a string, which then denotes no text. A `\u` escape that names half of a
surrogate pair alone has the same effect. Everything else is strict.
-/

namespace Telemetry.Json

/-- The input of the reader. -/
abbrev Symbols := List (Option Char)

/-- The blanks between tokens. -/
def isBlank (symbol : Option Char) : Bool :=
  symbol == some ' ' || symbol == some '\n' || symbol == some '\t' || symbol == some '\r'

/-- The input after its leading blanks. -/
def skipBlanks (input : Symbols) : Symbols :=
  input.dropWhile isBlank

-- ---------------------------------------------------------------------------
-- Strings
-- ---------------------------------------------------------------------------

/-- The value of a hexadecimal digit. -/
def hexDigit? (c : Char) : Option Nat :=
  if '0' ≤ c && c ≤ '9' then some (c.toNat - '0'.toNat)
  else if 'a' ≤ c && c ≤ 'f' then some (c.toNat - 'a'.toNat + 10)
  else if 'A' ≤ c && c ≤ 'F' then some (c.toNat - 'A'.toNat + 10)
  else none

/-- The value of four hexadecimal digits and the input after them. -/
def hexQuad? : Symbols → Option (Nat × Symbols)
  | some a :: some b :: some c :: some d :: rest => do
    let a ← hexDigit? a
    let b ← hexDigit? b
    let c ← hexDigit? c
    let d ← hexDigit? d
    some (((a * 16 + b) * 16 + c) * 16 + d, rest)
  | _ => none

/-- The characters of the escapes of one letter. -/
def shortEscape? : Char → Option Char
  | '"' => some '"'
  | '\\' => some '\\'
  | '/' => some '/'
  | 'b' => some '\x08'
  | 'f' => some '\x0c'
  | 'n' => some '\n'
  | 'r' => some '\r'
  | 't' => some '\t'
  | _ => none

/-- The second half of a surrogate pair, written as an escape at the head of the input. -/
def lowSurrogate? : Symbols → Option (Nat × Symbols)
  | some '\\' :: some 'u' :: rest =>
    (hexQuad? rest).filter fun (unit, _) => 0xdc00 ≤ unit && unit ≤ 0xdfff
  | _ => none

/-- The character of a `\u` escape whose backslash and letter have been read, absent for half of a
    surrogate pair alone. -/
def unicodeEscape? (input : Symbols) : Option (Option Char × Symbols) :=
  match hexQuad? input with
  | none => none
  | some (unit, rest) =>
    if 0xdc00 ≤ unit && unit ≤ 0xdfff then some (none, rest)
    else if 0xd800 ≤ unit && unit ≤ 0xdbff then
      match lowSurrogate? rest with
      | some (low, rest') =>
        some (some (Char.ofNat (0x10000 + (unit - 0xd800) * 1024 + (low - 0xdc00))), rest')
      | none => some (none, rest)
    else some (some (Char.ofNat unit), rest)

/-- One character of a string and the input after it. Control characters have to be escaped. -/
def stringItem? : Symbols → Option (Option Char × Symbols)
  | [] => none
  | none :: rest => some (none, rest)
  | some '\\' :: some 'u' :: rest => unicodeEscape? rest
  | some '\\' :: some c :: rest => (shortEscape? c).map fun c => (some c, rest)
  | some '\\' :: _ => none
  | some c :: rest => if c.toNat < 0x20 then none else some (some c, rest)

/-- The rest of a string up to its closing quote. The text read so far stands in reverse in `acc`. -/
def stringRest? : (fuel : Nat) → (acc : Option (List Char)) → Symbols →
    Option (Option String × Symbols)
  | 0, _, _ => none
  | fuel + 1, acc, input =>
    match input with
    | some '"' :: rest => some (acc.map fun chars => String.ofList chars.reverse, rest)
    | _ =>
      match stringItem? input with
      | none => none
      | some (item, rest) =>
        stringRest? fuel (acc.bind fun chars => item.map (· :: chars)) rest

/-- A string whose opening quote has been read. -/
def stringBody? (fuel : Nat) (input : Symbols) : Option (Option String × Symbols) :=
  stringRest? fuel (some []) input

-- ---------------------------------------------------------------------------
-- Numbers
-- ---------------------------------------------------------------------------

/-- The symbol is a decimal digit. -/
def isDigit (symbol : Option Char) : Bool :=
  symbol.any Char.isDigit

/-- The digits at the head of the input and what follows them. -/
def digits (input : Symbols) : List Char × Symbols :=
  ((input.takeWhile isDigit).filterMap id, input.dropWhile isDigit)

/-- The digits after a point, if there is a point. -/
def fraction? : Symbols → Option (List Char × Symbols)
  | some '.' :: rest =>
    let (part, rest') := digits rest
    if part.isEmpty then none else some (part, rest')
  | input => some ([], input)

/-- The power of ten, if one is written. -/
def power? (input : Symbols) : Option (Option Int × Symbols) :=
  match input with
  | some mark :: rest =>
    if mark = 'e' || mark = 'E' then
      let (negative, rest) :=
        match rest with
        | some '-' :: rest => (true, rest)
        | some '+' :: rest => (false, rest)
        | rest => (false, rest)
      let (part, rest') := digits rest
      if part.isEmpty then none
      else
        let value : Int := digitsValue part
        some (some (if negative then -value else value), rest')
    else some (none, input)
  | _ => some (none, input)

/-- A number without its sign. A zero at the head of the whole part stands alone. -/
def unsigned? (negative : Bool) (input : Symbols) : Option (Numeral × Symbols) :=
  let (whole, rest) := digits input
  match whole with
  | [] => none
  | '0' :: _ :: _ => none
  | _ =>
    match fraction? rest with
    | none => none
    | some (part, rest) =>
      match power? rest with
      | none => none
      | some (power, rest) =>
        some (⟨negative, ⟨digitsValue (whole ++ part), power.getD 0 - part.length⟩,
          part.isEmpty && power.isNone⟩, rest)

/-- A number. -/
def numeral? : Symbols → Option (Numeral × Symbols)
  | some '-' :: rest => unsigned? true rest
  | input => unsigned? false input

-- ---------------------------------------------------------------------------
-- Values
-- ---------------------------------------------------------------------------

/-- The input after a fixed word. -/
def word? (word : String) (input : Symbols) : Option Symbols :=
  if word.toList.map some <+: input then some (input.drop word.length) else none

mutual

/-- A value at the head of the input, and what follows it. -/
def value? : (fuel : Nat) → Symbols → Option (Json × Symbols)
  | 0, _ => none
  | fuel + 1, input =>
    match skipBlanks input with
    | some '"' :: rest => (stringBody? fuel rest).map fun (text?, rest) => (.string text?, rest)
    | some '[' :: rest =>
      match skipBlanks rest with
      | some ']' :: rest => some (.array [], rest)
      | rest => items? fuel [] rest
    | some '{' :: rest =>
      match skipBlanks rest with
      | some '}' :: rest => some (.object [], rest)
      | rest => fields? fuel [] rest
    | some 't' :: rest => (word? "rue" rest).map fun rest => (.bool true, rest)
    | some 'f' :: rest => (word? "alse" rest).map fun rest => (.bool false, rest)
    | some 'n' :: rest => (word? "ull" rest).map fun rest => (.null, rest)
    | rest => (numeral? rest).map fun (n, rest) => (.number n, rest)

/-- The items of an array up to its end; those read before stand in reverse in `acc`. -/
def items? : (fuel : Nat) → (acc : List Json) → Symbols → Option (Json × Symbols)
  | 0, _, _ => none
  | fuel + 1, acc, input =>
    match value? fuel input with
    | none => none
    | some (item, rest) =>
      match skipBlanks rest with
      | some ',' :: rest => items? fuel (item :: acc) rest
      | some ']' :: rest => some (.array (item :: acc).reverse, rest)
      | _ => none

/-- The fields of an object up to its end; those read before stand in reverse in `acc`. -/
def fields? : (fuel : Nat) → (acc : List (Option String × Json)) → Symbols →
    Option (Json × Symbols)
  | 0, _, _ => none
  | fuel + 1, acc, input =>
    match skipBlanks input with
    | some '"' :: rest =>
      match stringBody? fuel rest with
      | none => none
      | some (key, rest) =>
        match skipBlanks rest with
        | some ':' :: rest =>
          match value? fuel rest with
          | none => none
          | some (item, rest) =>
            match skipBlanks rest with
            | some ',' :: rest => fields? fuel ((key, item) :: acc) rest
            | some '}' :: rest => some (.object ((key, item) :: acc).reverse, rest)
            | _ => none
        | _ => none
    | _ => none

end

/-- The value that an input holds. The reader takes a symbol at least with every second of its steps,
    which bounds the fuel. -/
def read? (input : Symbols) : Option Json :=
  match value? (2 * input.length + 2) input with
  | some (value, rest) => if (skipBlanks rest).isEmpty then some value else none
  | none => none

/-- The value that bytes hold. -/
def readBytes? (bytes : List UInt8) : Option Json :=
  read? (Utf8.symbols bytes)

/-- The value that a text holds. -/
def readText? (text : String) : Option Json :=
  read? (text.toList.map some)

end Telemetry.Json

-- SUMMARY: Values of YAML documents and the accessors that settings are decoded with.
import Telemetry.Number.Reading

/-!
# YAML values

A scalar keeps its text and whether it stood there without quotes, for only such a scalar can be a
number, a truth value or the absent value. What a scalar is depends on who asks: where a text is wanted,
every scalar is one.
-/

namespace Telemetry

-- Powers of natural numbers are the plain ones, whatever algebra is in scope.
attribute [local instance (2000)] instPowNat instNatPowNat

/-- A value of a document. -/
inductive Yaml where
  /-- A text, with quotes or plain. -/
  | scalar (isPlain : Bool) (text : String)
  | list (items : List Yaml)
  | map (fields : List (Yaml × Yaml))

namespace Yaml

/-- What stands where nothing is written. -/
def nothing : Yaml := scalar true ""

/-- A text. -/
def text? : Yaml → Option String
  | scalar _ text => some text
  | _ => none

/-- The plain texts that stand for an absent value. -/
def isNull (text : String) : Bool :=
  text.isEmpty || text == "~" || text == "null" || text == "Null" || text == "NULL"

/-- A text that may be absent. -/
def optionalText? : Yaml → Option (Option String)
  | scalar true text => some (if isNull text then none else some text)
  | scalar false text => some (some text)
  | _ => none

/-- A truth value. -/
def bool? : Yaml → Option Bool
  | scalar true text =>
    if ["true", "True", "TRUE"].contains text then some true
    else if ["false", "False", "FALSE"].contains text then some false
    else none
  | _ => none

/-- A list of texts; where nothing is written it is empty. -/
def texts? : Yaml → Option (List String)
  | list items => items.mapM text?
  | scalar true "" => some []
  | _ => none

/-- The fields of a map with their names; where nothing is written there are none. -/
def fields? : Yaml → Option (List (String × Yaml))
  | map fields => fields.mapM fun (name, value) => name.text?.map (·, value)
  | scalar true "" => some []
  | _ => none

-- ---------------------------------------------------------------------------
-- Numbers
-- ---------------------------------------------------------------------------

/-- The value of a digit in a base up to sixteen. -/
def digitIn? (base : Nat) (c : Char) : Option Nat :=
  let value :=
    if c.isDigit then some (c.toNat - '0'.toNat)
    else if 'a' ≤ c.toLower && c.toLower ≤ 'f' then some (c.toLower.toNat - 'a'.toNat + 10)
    else none
  value.filter (· < base)

/-- The number that digits in a base stand for. There has to be one. -/
def digitsIn? (base : Nat) (digits : List Char) : Option Nat :=
  if digits.isEmpty then none
  else digits.foldlM (fun acc c => (digitIn? base c).map (base * acc + ·)) 0

/-- A natural number in decimal digits without a leading zero, or in one of the bases that a mark in
    front of the digits names. A plus sign may stand before all of it. -/
def naturalText? (text : String) : Option Nat :=
  let digits := match text.toList with
    | '+' :: rest => rest
    | all => all
  match digits with
  | '0' :: 'x' :: rest => digitsIn? 16 rest
  | '0' :: 'o' :: rest => digitsIn? 8 rest
  | '0' :: 'b' :: rest => digitsIn? 2 rest
  | '0' :: _ :: _ => none
  | all => digitsIn? 10 all

/-- A natural number of so many bits. -/
def natural? (bits : Nat) : Yaml → Option Nat
  | scalar true text => (naturalText? text).filter (· < 2 ^ bits)
  | _ => none

end Yaml

end Telemetry

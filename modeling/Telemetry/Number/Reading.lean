-- SUMMARY: Reading integers and binary64 numbers from text, with the cause of each failure.
import Telemetry.Number.Decimal

/-!
# Reading numbers

An integer is an optional sign and decimal digits. A binary64 number is an optional sign followed by
decimal digits with an optional point and an optional power of ten, or by one of the words `inf`,
`infinity` and `nan` in any case. Nothing may stand before or after a number, blanks included.
-/

namespace Telemetry

-- Powers of natural numbers are the plain ones, whatever algebra is in scope.
attribute [local instance (2000)] instPowNat instNatPowNat

/-- Why a text is no integer of the wanted range. -/
inductive IntegerFault where
  | empty
  | invalidDigit
  | tooLarge
  | tooSmall
  deriving DecidableEq, Repr

/-- Why a text is no binary64 number. -/
inductive RealFault where
  | empty
  | invalid
  deriving DecidableEq, Repr

def IntegerFault.message : IntegerFault → String
  | empty => "cannot parse integer from empty string"
  | invalidDigit => "invalid digit found in string"
  | tooLarge => "number too large to fit in target type"
  | tooSmall => "number too small to fit in target type"

def RealFault.message : RealFault → String
  | empty => "cannot parse float from empty string"
  | invalid => "invalid float literal"

/-- The value of a decimal digit. -/
def digitValue? (c : Char) : Option Nat :=
  if c.isDigit then some (c.toNat - '0'.toNat) else none

-- ---------------------------------------------------------------------------
-- Integers
-- ---------------------------------------------------------------------------

/-- Read digits from the left onto `acc`. The first character that is no digit, or that takes the
    number out of range, decides the failure. -/
def readDigits (low high : Int) (negative : Bool) : List Char → Int → Except IntegerFault Int
  | [], acc => .ok acc
  | c :: rest, acc =>
    match digitValue? c with
    | none => .error .invalidDigit
    | some d =>
      let next := if negative then acc * 10 - d else acc * 10 + d
      if high < next then .error .tooLarge
      else if next < low then .error .tooSmall
      else readDigits low high negative rest next

/-- Read an integer between two bounds. A minus sign is known only where negative numbers are. -/
def readInteger (low high : Int) (text : String) : Except IntegerFault Int :=
  match text.toList with
  | [] => .error .empty
  | ['+'] | ['-'] => .error .invalidDigit
  | '+' :: digits => readDigits low high false digits 0
  | '-' :: digits =>
    if low < 0 then readDigits low high true digits 0 else .error .invalidDigit
  | digits => readDigits low high false digits 0

/-- Read a 64-bit integer. -/
def readInt64 (text : String) : Except IntegerFault Int64 :=
  (readInteger Int64.minValue.toInt Int64.maxValue.toInt text).map Int64.ofInt

/-- Read a natural number of so many bits. -/
def readNatural (bits : Nat) (text : String) : Except IntegerFault Nat :=
  (readInteger 0 (2 ^ bits - 1 : Nat) text).map Int.toNat

-- ---------------------------------------------------------------------------
-- Binary64 numbers
-- ---------------------------------------------------------------------------

/-- The value of a run of digits. -/
def digitsValue (digits : List Char) : Nat :=
  digits.foldl (fun acc c => acc * 10 + (c.toNat - '0'.toNat)) 0

/-- The sign of a text and what follows it. -/
def splitSign : List Char → Bool × List Char
  | '-' :: rest => (true, rest)
  | '+' :: rest => (false, rest)
  | rest => (false, rest)

/-- The power of ten written at the end of a number, zero when there is none. -/
def readPower? : List Char → Option Int
  | [] => some 0
  | mark :: rest =>
    if mark = 'e' || mark = 'E' then
      let (negative, digits) := splitSign rest
      if digits.isEmpty || !digits.all Char.isDigit then none
      else
        let power : Int := digitsValue digits
        some (if negative then -power else power)
    else none

/-- Read an unsigned decimal: digits on at least one side of the point, then a power of ten. -/
def Decimal.read? (text : List Char) : Option Decimal :=
  let (whole, afterWhole) := text.span Char.isDigit
  let (part, afterPart) :=
    match afterWhole with
    | '.' :: rest => rest.span Char.isDigit
    | rest => ([], rest)
  if whole.isEmpty && part.isEmpty then none
  else
    (readPower? afterPart).map fun power =>
      ⟨digitsValue (whole ++ part), power - part.length⟩

/-- Read a binary64 number. -/
def readReal (text : String) : Except RealFault Binary64 :=
  if text.isEmpty then .error .empty
  else
    let (negative, rest) := splitSign text.toList
    let word := rest.map Char.toLower
    if word = "inf".toList || word = "infinity".toList then
      .ok (.atPlace negative Binary64.infinityPlace)
    else if word = "nan".toList then .ok .nan
    else
      match Decimal.read? rest with
      | some d => .ok (d.toBinary64 negative)
      | none => .error .invalid

end Telemetry

-- SUMMARY: Reading documents: nested maps and lists by indentation or in brackets.
import Telemetry.Yaml.Basic
import Telemetry.Yaml.Scalar

/-!
# Reading documents

A text holds at most one document. The fields of a map and the items of a list stand in one column; what
is indented more belongs to the field or item before. A list may stand in the column of the field that
it belongs to. Within brackets the indentation does not matter. Anchors, tags and keys that are not
scalars on one line are not accepted.
-/

namespace Telemetry.Yaml

/-- The character may stand in a document. -/
def isAllowed (c : Char) : Bool :=
  let n := c.toNat
  n = 9 || n = 10 || (0x20 ≤ n && n ≤ 0x7e) || n = 0x85
    || (0xa0 ≤ n && n ≠ 0xfeff && n ≠ 0xfffe && n ≠ 0xffff)

/-- The text with one kind of line ends. -/
def unifyLines : List Char → List Char
  | '\r' :: '\n' :: rest => '\n' :: unifyLines rest
  | '\r' :: rest => '\n' :: unifyLines rest
  | c :: rest => c :: unifyLines rest
  | [] => []

-- ---------------------------------------------------------------------------
-- Brackets
-- ---------------------------------------------------------------------------

mutual

/-- Read a value within brackets. -/
def bracketValue? : (fuel : Nat) → Cursor → Option (Yaml × Cursor)
  | 0, _ => none
  | fuel + 1, c =>
    match c.rest with
    | '[' :: _ => listItems? fuel [] (c.forward 1)
    | '\x7b' :: _ => mapFields? fuel [] (c.forward 1)
    | '"' :: _ => (quoted? '"' (c.forward 1)).map fun s => (scalar false (.ofList s.text), s.after)
    | '\x27' :: _ =>
      (quoted? '\x27' (c.forward 1)).map fun s => (scalar false (.ofList s.text), s.after)
    | rest =>
      if beginsPlain true rest then
        let s := plain true 0 c
        some (scalar true (.ofList s.text), s.after)
      else none

/-- Read the items of a list. Those so far are given in reverse. -/
def listItems? : (fuel : Nat) → (acc : List Yaml) → Cursor → Option (Yaml × Cursor)
  | 0, _, _ => none
  | fuel + 1, acc, c => do
    let (_, c) ← c.skip? true
    match c.rest with
    | ']' :: _ => some (list acc.reverse, c.forward 1)
    | _ =>
      let (item, c) ← bracketValue? fuel c
      let (_, c) ← c.skip? true
      let (item, c) ←
        match c.rest with
        | ':' :: _ => do
          let (value, c) ← fieldValue? fuel (c.forward 1)
          some (map [(item, value)], c)
        | _ => some (item, c)
      match c.rest with
      | ',' :: _ => listItems? fuel (item :: acc) (c.forward 1)
      | ']' :: _ => some (list (item :: acc).reverse, c.forward 1)
      | _ => none

/-- Read the value behind a colon, which may be missing, and what lies behind it. -/
def fieldValue? : (fuel : Nat) → Cursor → Option (Yaml × Cursor)
  | 0, _ => none
  | fuel + 1, c => do
    let (_, c) ← c.skip? true
    match c.rest with
    | ',' :: _ | '\x7d' :: _ | ']' :: _ => some (nothing, c)
    | _ =>
      let (value, c) ← bracketValue? fuel c
      let (_, c) ← c.skip? true
      some (value, c)

/-- Read the fields of a map. Those so far are given in reverse. -/
def mapFields? : (fuel : Nat) → (acc : List (Yaml × Yaml)) → Cursor → Option (Yaml × Cursor)
  | 0, _, _ => none
  | fuel + 1, acc, c => do
    let (_, c) ← c.skip? true
    match c.rest with
    | '\x7d' :: _ => some (map acc.reverse, c.forward 1)
    | _ =>
      let (key, c) ← bracketValue? fuel c
      let (_, c) ← c.skip? true
      let (value, c) ←
        match c.rest with
        | ':' :: _ => fieldValue? fuel (c.forward 1)
        | _ => some (nothing, c)
      match c.rest with
      | ',' :: _ => mapFields? fuel ((key, value) :: acc) (c.forward 1)
      | '\x7d' :: _ => some (map ((key, value) :: acc).reverse, c.forward 1)
      | _ => none

end

-- ---------------------------------------------------------------------------
-- Indentation
-- ---------------------------------------------------------------------------

/-- An item of a list begins here. -/
def isItemMark : List Char → Bool
  | '-' :: rest => Cursor.isBlankOrEnd rest
  | _ => false

/-- Read a scalar that is quoted or plain, and whether it is plain. -/
def readScalar? (indent : Int) (c : Cursor) : Option (Bool × ScalarToken) :=
  match c.rest with
  | '"' :: _ => (quoted? '"' (c.forward 1)).map (false, ·)
  | '\x27' :: _ => (quoted? '\x27' (c.forward 1)).map (false, ·)
  | rest => if beginsPlain false rest then some (true, plain false indent c) else none

/-- Read a key up to the colon behind it. -/
def readKey? (indent : Int) (c : Cursor) : Option (Yaml × Cursor) := do
  let (isPlain, s) ← readScalar? indent c
  let after := s.after.skipBlanks
  if s.onOneLine && isKeyMark false after.rest then
    some (scalar isPlain (.ofList s.text), after.forward 1)
  else none

mutual

/-- Read the value of a field or item at `indent`. A key may stand here if `mayHoldKey`, or on a further
    line; the items of a list may stand at `indent` itself if the value belongs to a field. -/
def readValue? : (fuel : Nat) → (indent : Int) → (mayHoldKey ofField : Bool) → Cursor →
    Option (Yaml × Cursor)
  | 0, _, _, _, _ => none
  | fuel + 1, indent, mayHoldKey, ofField, start => do
    let (crossed, c) ← start.skip? false
    let column : Int := c.column
    if c.atEnd then some (nothing, start)
    else if crossed && column ≤ indent then
      if ofField && column = indent && isItemMark c.rest then readItems? fuel c.column [] c
      else some (nothing, start)
    else if isItemMark c.rest then
      if crossed || mayHoldKey then readItems? fuel c.column [] c else none
    else
      match c.rest with
      | '|' :: _ => (block? false indent (c.forward 1)).map fun s =>
          (scalar false (.ofList s.text), s.after)
      | '>' :: _ => (block? true indent (c.forward 1)).map fun s =>
          (scalar false (.ofList s.text), s.after)
      | '[' :: _ | '\x7b' :: _ =>
        let (value, c) ← bracketValue? fuel c
        if isKeyMark false c.skipBlanks.rest then none else some (value, c)
      | _ =>
        let (isPlain, s) ← readScalar? indent c
        let after := s.after.skipBlanks
        if isKeyMark false after.rest then
          if s.onOneLine && (crossed || mayHoldKey) then
            readFields? fuel c.column [] (scalar isPlain (.ofList s.text)) (after.forward 1)
          else none
        else some (scalar isPlain (.ofList s.text), s.after)

/-- Read the items of a list in a column. Those so far are given in reverse. -/
def readItems? : (fuel : Nat) → (column : Nat) → (acc : List Yaml) → Cursor → Option (Yaml × Cursor)
  | 0, _, _, _ => none
  | fuel + 1, column, acc, c => do
    let (item, c) ← readValue? fuel column true false (c.forward 1)
    let (crossed, next) ← c.skip? false
    if (crossed || c.column = 0) && !next.atEnd && next.column = column && isItemMark next.rest then
      readItems? fuel column (item :: acc) next
    else some (list (item :: acc).reverse, c)

/-- Read the fields of a map in a column, the first of which begins with a key that has been read. -/
def readFields? : (fuel : Nat) → (column : Nat) → (acc : List (Yaml × Yaml)) → (key : Yaml) → Cursor →
    Option (Yaml × Cursor)
  | 0, _, _, _, _ => none
  | fuel + 1, column, acc, key, c => do
    let (value, c) ← readValue? fuel column false true c
    let (crossed, next) ← c.skip? false
    if next.atEnd || next.column < column then some (map ((key, value) :: acc).reverse, c)
    else if (crossed || c.column = 0) && next.column = column then do
      let (nextKey, c) ← readKey? column next
      readFields? fuel column ((key, value) :: acc) nextKey c
    else none

end

/-- Nothing but the end of the document follows, and no other document. -/
def isLast (c : Cursor) : Bool :=
  match c.skip? false with
  | none => false
  | some (_, c) =>
    if c.rest.isEmpty then true
    else if c.isStop then
      match (c.forward 3).skip? false with
      | some (_, c) => c.rest.isEmpty
      | none => false
    else false

/-- The document of a text. A text without a document stands for nothing. -/
def read? (text : String) : Option Yaml := do
  let chars := unifyLines text.toList
  let chars := if chars.head? = some '\ufeff' then chars.drop 1 else chars
  guard (chars.all isAllowed)
  let (_, c) ← Cursor.skipFrom? false chars 0 true
  let start := if c.isStart then c.forward 3 else c
  let (value, c) ← readValue? (4 * chars.length + 4) (-1) (!c.isStart) false start
  if isLast c then some value else none

end Telemetry.Yaml

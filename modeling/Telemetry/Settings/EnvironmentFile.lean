-- SUMMARY: Files that set variables of the environment.
import Telemetry.Text.Blank

/-!
# Environment files

Each line names a variable and its value. Values may be quoted, over several lines if need be, and may
refer to variables that are already there. Reading stops at the first line that is not well formed; a
variable that is set already keeps its value.
-/

namespace Telemetry.Settings

/-- The variables of an environment with their values. -/
abbrev Environment := List (String × String)

namespace EnvironmentFile

-- ---------------------------------------------------------------------------
-- Lines
-- ---------------------------------------------------------------------------

/-- Where a line stands after some of its characters. -/
inductive Place where
  /-- Outside of everything. -/
  | plain
  /-- Behind a blank. -/
  | blank
  | escape
  | doubleQuoted
  | doubleQuotedEscape
  | quoted
  | quotedEscape
  deriving DecidableEq, Repr

/-- The place behind a character outside of quotes. -/
def Place.afterPlain (c : Char) : Place :=
  if c = '\\' then .escape
  else if c = '"' then .doubleQuoted
  else if c = '\x27' then .quoted
  else .plain

/-- The place behind one more character. -/
def Place.after (c : Char) : Place → Place
  | plain => if Text.isBlank c && c ≠ '\n' && c ≠ '\r' then blank else afterPlain c
  | blank => afterPlain c
  | escape => plain
  | doubleQuoted =>
    if c = '\\' then doubleQuotedEscape else if c = '"' then plain else doubleQuoted
  | doubleQuotedEscape => doubleQuoted
  | quoted => if c = '\\' then quotedEscape else if c = '\x27' then plain else quoted
  | quotedEscape => quoted

/-- A line up to a comment, which begins with a number sign behind a blank, and the place at its end; no
    place if there is a comment. -/
def scanLine : Place → List Char → List Char × Option Place
  | place, [] => ([], some place)
  | place, c :: rest =>
    if place = .blank && c = '#' then ([], none)
    else
      let (kept, last) := scanLine (place.after c) rest
      (c :: kept, last)

/-- A text without the line break at its end. -/
def dropBreak (text : List Char) : List Char :=
  match text.reverse with
  | '\n' :: '\r' :: before => before.reverse
  | '\n' :: before => before.reverse
  | _ => text

/-- The lines of a text, each with its line break. -/
def splitLines : List Char → List (List Char)
  | [] => []
  | c :: rest =>
    if c = '\n' then [c] :: splitLines rest
    else
      match splitLines rest with
      | [] => [[c]]
      | line :: others => (c :: line) :: others

/-- Join the lines over which a quoted value extends. The end of the text within a value leaves `none`. -/
def joinLines : (begun : List Char) → Place → List (List Char) → List (Option (List Char))
  | _, .plain, [] => []
  | _, _, [] => [none]
  | begun, place, line :: rest =>
    if (begun ++ line).dropWhile Text.isBlank |>.head? |>.isEqSome '#' then
      some [] :: joinLines [] .plain rest
    else
      match scanLine place line with
      | (kept, none) => some (begun ++ kept) :: joinLines [] .plain rest
      | (kept, some .plain) => some (dropBreak (begun ++ kept)) :: joinLines [] .plain rest
      | (kept, some place) => joinLines (begun ++ kept) place rest

-- ---------------------------------------------------------------------------
-- Values
-- ---------------------------------------------------------------------------

/-- What the next character of a value belongs to. -/
inductive Part where
  | text
  | escape
  | quoted
  /-- The name of a variable. -/
  | name
  /-- The name of a variable in braces. -/
  | bracedName
  /-- The value has ended; blanks and a comment may follow. -/
  | ending
  | comment
  deriving DecidableEq, Repr

/-- What has been read of a value. -/
structure Progress where
  part : Part
  doubleQuoted : Bool
  /-- The characters of a name. -/
  name : List Char
  output : List Char

namespace Progress

/-- Put the value of the named variable in the place of the name. -/
def substitute (environment : Environment) (p : Progress) : Progress :=
  let value := (environment.lookup (String.ofList p.name)).getD ""
  { p with part := .text, name := [], output := p.output ++ value.toList }

def put (p : Progress) (c : Char) : Progress :=
  { p with output := p.output ++ [c] }

/-- A character of the name of a variable. -/
def isNameChar (c : Char) : Bool :=
  c.isAlphanum || (0x80 ≤ c.toNat && !Text.isBlank c)

/-- Read a character of the text itself. -/
def readText (p : Progress) (c : Char) : Progress :=
  if c = '$' then { p with part := .name }
  else if c = '\\' then { p with part := .escape }
  else if c = '"' then { p with doubleQuoted := !p.doubleQuoted }
  else if p.doubleQuoted then p.put c
  else if c = '\x27' then { p with part := .quoted }
  else if c = ' ' || c = '\t' then { p with part := .ending }
  else p.put c

/-- Read one more character. -/
def read (environment : Environment) (p : Progress) (c : Char) : Option Progress :=
  match p.part with
  | .text => some (p.readText c)
  | .escape =>
    let p := { p with part := .text }
    if c = 'n' then some (p.put '\n')
    else if ['\\', '\x27', '"', '$', ' '].contains c then some (p.put c)
    else none
  | .quoted => some (if c = '\x27' then { p with part := .text } else p.put c)
  | .name =>
    if isNameChar c then some { p with name := p.name ++ [c] }
    else if c = '\x7b' && p.name.isEmpty then some { p with part := .bracedName }
    else
      let p := p.substitute environment
      some (if c = '$' then { p with part := .name } else p.put c)
  | .bracedName =>
    some (if c = '\x7d' then p.substitute environment else { p with name := p.name ++ [c] })
  | .ending =>
    if c = ' ' || c = '\t' then some p
    else if c = '#' then some { p with part := .comment }
    else none
  | .comment => some p

end Progress

/-- Read a value. -/
def readValue? (environment : Environment) (text : List Char) : Option String := do
  let p ← text.foldlM (Progress.read environment) ⟨.text, false, [], []⟩
  if p.doubleQuoted || p.part = .quoted || p.part = .bracedName then none
  else if p.part = .name then some (String.ofList (p.substitute environment).output)
  else some (String.ofList p.output)

-- ---------------------------------------------------------------------------
-- Variables
-- ---------------------------------------------------------------------------

/-- A name at the beginning of a text, and the text behind it and its blanks. -/
def readName? (text : List Char) : Option (String × List Char) :=
  let isFirst := fun (c : Char) => c.isAlpha || c = '_'
  let isLater := fun (c : Char) => c.isAlphanum || c = '_' || c = '.'
  match text with
  | c :: _ =>
    if isFirst c then
      let (name, rest) := text.span isLater
      some (String.ofList name, rest.dropWhile Text.isBlank)
    else none
  | [] => none

/-- The name that a line sets, which may stand behind the word `export`, and the text behind the equals
    sign. -/
def readTarget? (text : List Char) : Option (String × List Char) := do
  match ← readName? text with
  | (name, '=' :: rest) => some (name, rest)
  | ("export", rest) =>
    match ← readName? rest with
    | (name, '=' :: rest) => some (name, rest)
    | _ => none
  | _ => none

/-- There is nothing but perhaps a comment. -/
def isVoid (text : List Char) : Bool :=
  text.isEmpty || text.head? == some '#'

/-- The environment after a line, if the line is well formed. -/
def applyLine? (environment : Environment) (line : List Char) : Option Environment :=
  let text := Text.trimChars Text.isBlank line
  if isVoid text then some environment
  else do
    let (name, rest) ← readTarget? text
    let rest := rest.dropWhile Text.isBlank
    let value ← if isVoid rest then some "" else readValue? environment rest
    some (if (environment.lookup name).isSome then environment else (name, value) :: environment)

/-- The environment after lines, up to the first that is not well formed. -/
def applyLines (environment : Environment) : List (Option (List Char)) → Environment
  | some line :: rest =>
    match applyLine? environment line with
    | some environment => applyLines environment rest
    | none => environment
  | _ => environment

/-- The environment after a file. A mark of the byte order at its beginning is left out. -/
def apply (environment : Environment) (text : String) : Environment :=
  let chars := if text.startsWith "\uFEFF" then text.toList.tail else text.toList
  applyLines environment (joinLines [] .plain (splitLines chars))

end EnvironmentFile

end Telemetry.Settings

-- SUMMARY: Reading the scalars of a document: quoted, plain, and blocks of lines.
import Telemetry.Yaml.Cursor

/-!
# Scalars

A quoted scalar ends at its quote, a plain one at a mark that means something else or at the end of its
line. Both may go on in further lines, which are folded. A block scalar consists of all lines that are
indented more than what it belongs to. Every reader takes at least one character in each step, so the
length of the text is enough fuel.
-/

namespace Telemetry.Yaml

/-- A scalar that has been read: its text, whether it is on one line, and the position after it. -/
structure ScalarToken where
  text : List Char
  onOneLine : Bool
  after : Cursor

-- ---------------------------------------------------------------------------
-- Quoted scalars
-- ---------------------------------------------------------------------------

/-- The value of a hexadecimal digit. -/
def hexDigit? (c : Char) : Option Nat :=
  if c.isDigit then some (c.toNat - '0'.toNat)
  else if 'a' ≤ c.toLower && c.toLower ≤ 'f' then some (c.toLower.toNat - 'a'.toNat + 10)
  else none

/-- The character with a number in so many hexadecimal digits. -/
def hexChar? (count : Nat) (rest : List Char) : Option Char :=
  if rest.length < count then none
  else do
    let n ← (rest.take count).foldlM (fun acc c => (hexDigit? c).map (16 * acc + ·)) 0
    if n.isValidChar then some (Char.ofNat n) else none

/-- The character of an escape, and how many characters it takes after the backslash. -/
def escape? : List Char → Option (Char × Nat)
  | '0' :: _ => some ('\x00', 1)
  | 'a' :: _ => some ('\x07', 1)
  | 'b' :: _ => some ('\x08', 1)
  | 't' :: _ => some ('\t', 1)
  | '\t' :: _ => some ('\t', 1)
  | 'n' :: _ => some ('\n', 1)
  | 'v' :: _ => some ('\x0b', 1)
  | 'f' :: _ => some ('\x0c', 1)
  | 'r' :: _ => some ('\r', 1)
  | 'e' :: _ => some ('\x1b', 1)
  | ' ' :: _ => some (' ', 1)
  | '"' :: _ => some ('"', 1)
  | '/' :: _ => some ('/', 1)
  | '\\' :: _ => some ('\\', 1)
  | 'N' :: _ => some ('\u0085', 1)
  | '_' :: _ => some ('\u00a0', 1)
  | 'L' :: _ => some ('\u2028', 1)
  | 'P' :: _ => some ('\u2029', 1)
  | 'x' :: rest => (hexChar? 2 rest).map (·, 3)
  | 'u' :: rest => (hexChar? 4 rest).map (·, 5)
  | 'U' :: rest => (hexChar? 8 rest).map (·, 9)
  | _ => none

/-- Read on in a quoted scalar. The text so far and the blanks behind it are given in reverse. -/
def quotedFrom? (quote : Char) : (fuel : Nat) → (text blanks : List Char) → (onOneLine : Bool) →
    Cursor → Option ScalarToken
  | 0, _, _, _, _ => none
  | fuel + 1, text, blanks, onOneLine, c =>
    match c.rest with
    | [] => none
    | '\n' :: _ =>
      let (lines, after) := Cursor.skipLines c.rest c.column 0
      if after.atEnd then none
      else quotedFrom? quote fuel ((Cursor.foldedLines lines).reverse ++ text) [] false after
    | first :: rest =>
      if first = ' ' || first = '\t' then
        quotedFrom? quote fuel text (first :: blanks) onOneLine (c.forward 1)
      else
        let text := blanks ++ text
        if first = quote then
          if quote = '\x27' && rest.head? = some quote then
            quotedFrom? quote fuel (quote :: text) [] onOneLine (c.forward 2)
          else some ⟨text.reverse, onOneLine, c.forward 1⟩
        else if first = '\\' && quote = '"' then
          match rest with
          | '\n' :: after =>
            let (lines, after) := Cursor.skipLines after 0 0
            quotedFrom? quote fuel (List.replicate lines '\n' ++ text) [] false after
          | _ =>
            match escape? rest with
            | some (char, count) =>
              quotedFrom? quote fuel (char :: text) [] onOneLine (c.forward (count + 1))
            | none => none
        else quotedFrom? quote fuel (first :: text) [] onOneLine (c.forward 1)

/-- Read a quoted scalar behind its first quote. -/
def quoted? (quote : Char) (c : Cursor) : Option ScalarToken :=
  quotedFrom? quote (c.rest.length + 1) [] [] true c

-- ---------------------------------------------------------------------------
-- Plain scalars
-- ---------------------------------------------------------------------------

/-- The characters that have a meaning within brackets. -/
def isBracketMark (c : Char) : Bool :=
  c = ',' || c = '[' || c = ']' || c = '\x7b' || c = '\x7d'

/-- The characters that cannot begin a plain scalar. -/
def isIndicator (c : Char) : Bool :=
  isBracketMark c || "#&*!|>\"%@".toList.contains c || c = '\x27' || c = '\x60'

/-- A plain scalar can begin with these characters. -/
def beginsPlain (inBrackets : Bool) : List Char → Bool
  | [] => false
  | first :: rest =>
    if first = '-' || first = '?' || first = ':' then
      !Cursor.isBlankOrEnd rest && !(inBrackets && rest.head?.elim false isBracketMark)
    else !isIndicator first

/-- A colon here separates a key from its value. -/
def isKeyMark (inBrackets : Bool) : List Char → Bool
  | ':' :: rest => Cursor.isBlankOrEnd rest || (inBrackets && rest.head?.elim false isBracketMark)
  | _ => false

/-- Read what belongs to a plain scalar on one line. The text so far and the blanks behind it are given
    in reverse. -/
def plainLine (inBrackets : Bool) : List Char → (column : Nat) → (text blanks : List Char) →
    List Char × Cursor
  | [], column, text, _ => (text, ⟨[], column⟩)
  | first :: rest, column, text, blanks =>
    if first = '\n' || (first = '#' && !blanks.isEmpty) || isKeyMark inBrackets (first :: rest)
        || (inBrackets && isBracketMark first) then
      (text, ⟨first :: rest, column⟩)
    else if first = ' ' || first = '\t' then
      plainLine inBrackets rest (column + 1) text (first :: blanks)
    else plainLine inBrackets rest (column + 1) (first :: (blanks ++ text)) []

/-- Read on in a plain scalar whose further lines are indented more than `indent`. -/
def plainFrom (inBrackets : Bool) (indent : Int) : (fuel : Nat) → (text : List Char) →
    (onOneLine : Bool) → Cursor → ScalarToken
  | 0, text, onOneLine, c => ⟨text.reverse, onOneLine, c⟩
  | fuel + 1, text, onOneLine, c =>
    let (text, after) := plainLine inBrackets c.rest c.column text []
    match after.rest with
    | '\n' :: _ =>
      let (lines, next) := Cursor.skipLines after.rest after.column 0
      if next.atEnd || next.rest.head? = some '#' || (!inBrackets && (next.column : Int) ≤ indent)
          || isKeyMark inBrackets next.rest
          || (inBrackets && next.rest.head?.elim false isBracketMark) then
        ⟨text.reverse, onOneLine, after⟩
      else
        plainFrom inBrackets indent fuel ((Cursor.foldedLines lines).reverse ++ text) false next
    | _ => ⟨text.reverse, onOneLine, after⟩

/-- Read a plain scalar. -/
def plain (inBrackets : Bool) (indent : Int) (c : Cursor) : ScalarToken :=
  plainFrom inBrackets indent (c.rest.length + 1) [] true c

-- ---------------------------------------------------------------------------
-- Block scalars
-- ---------------------------------------------------------------------------

/-- What becomes of the line ends at the end of a block scalar. -/
inductive Ending where
  | clip
  | strip
  | keep
  deriving DecidableEq, Repr

/-- Read the marks behind the first character of a block scalar: an indentation and an ending. -/
def blockMarks : List Char → Option Nat × Ending × List Char
  | '-' :: rest => (digit rest).elim (none, .strip, rest) fun (n, rest) => (some n, .strip, rest)
  | '+' :: rest => (digit rest).elim (none, .keep, rest) fun (n, rest) => (some n, .keep, rest)
  | all =>
    match digit all with
    | some (n, '-' :: rest) => (some n, .strip, rest)
    | some (n, '+' :: rest) => (some n, .keep, rest)
    | some (n, rest) => (some n, .clip, rest)
    | none => (none, .clip, all)
where
  /-- A digit from one to nine. -/
  digit : List Char → Option (Nat × List Char)
    | c :: rest => if '1' ≤ c && c ≤ '9' then some (c.toNat - '0'.toNat, rest) else none
    | [] => none

/-- The lines of a block scalar, each without its indentation, and the text after them. Blank lines are
    empty. Without a known indentation the first line that is not blank sets it. -/
def blockLines (least : Nat) : (fuel : Nat) → (indent : Option Nat) → List Char →
    List (List Char) × List Char
  | 0, _, rest => ([], rest)
  | _, _, [] => ([], [])
  | fuel + 1, indent, rest =>
    let spaces := (rest.takeWhile (· = ' ')).length
    let limit := indent.getD (max spaces least)
    let content := rest.drop (min spaces limit)
    if content.head? = some '\n' && spaces ≤ limit then
      let (lines, rest) := blockLines least fuel indent (content.drop 1)
      ([] :: lines, rest)
    else if spaces < limit || content.isEmpty then ([], rest)
    else
      let (line, after) := content.span (· ≠ '\n')
      let (lines, rest) := blockLines least fuel (some limit) (after.drop 1)
      (line :: lines, rest)

/-- The line begins with a blank. -/
def isIndented (line : List Char) : Bool :=
  line.head? = some ' ' || line.head? = some '\t'

/-- Join the lines of a block scalar, of which the one before is given, if there is one, with the count
    of blank lines since then. -/
def joinBlock (folds : Bool) : (before : Option (List Char)) → (blank : Nat) → List (List Char) →
    List Char
  | _, _, [] => []
  | before, blank, [] :: rest => joinBlock folds before (blank + 1) rest
  | before, blank, line :: rest =>
    let lineEnd := match before with
      | none => []
      | some last =>
        if folds && !isIndented last && !isIndented line then (if blank = 0 then [' '] else [])
        else ['\n']
    lineEnd ++ List.replicate blank '\n' ++ line ++ joinBlock folds (some line) 0 rest

/-- What stands at the end of a block scalar. -/
def blockEnd (ending : Ending) (lines : List (List Char)) : List Char :=
  let blank := (lines.reverse.takeWhile (·.isEmpty)).length
  let hasText := blank < lines.length
  match ending with
  | .strip => []
  | .clip => if hasText then ['\n'] else []
  | .keep => (if hasText then ['\n'] else []) ++ List.replicate blank '\n'

/-- Read a block scalar behind its first character. It belongs to something at `indent`. -/
def block? (folds : Bool) (indent : Int) (c : Cursor) : Option ScalarToken :=
  let (depth, ending, rest) := blockMarks c.rest
  let header := (Cursor.skipBlanks ⟨rest, 1⟩).rest
  let afterHeader :=
    if header.head? = some '#' && Cursor.isBlankOrEnd rest then header.dropWhile (· ≠ '\n')
    else header
  match afterHeader with
  | [] => some ⟨[], false, ⟨[], 1⟩⟩
  | '\n' :: body =>
    let least := (max (indent + 1) 1).toNat
    let fixed := depth.map fun depth => (max indent 0).toNat + depth
    let (lines, rest) := blockLines least (body.length + 1) fixed body
    some ⟨joinBlock folds none 0 lines ++ blockEnd ending lines, false, .newLine rest⟩
  | _ => none

end Telemetry.Yaml

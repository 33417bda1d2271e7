-- SUMMARY: Positions in the text of a document, and what lies between its tokens.

/-!
# Positions in a document

The column of a character decides what it belongs to, so a position keeps the rest of the text and the
column where it begins.
-/

namespace Telemetry.Yaml

/-- A position in a text. -/
structure Cursor where
  rest : List Char
  column : Nat

namespace Cursor

/-- The position behind a line end at the head of the given rest. -/
def newLine (rest : List Char) : Cursor := ⟨rest, 0⟩

/-- The position after so many characters of the same line. -/
def forward (c : Cursor) (count : Nat) : Cursor :=
  ⟨c.rest.drop count, c.column + count⟩

/-- A blank, a line end or the end of the text. -/
def isBlankOrEnd : List Char → Bool
  | [] => true
  | c :: _ => c = ' ' || c = '\t' || c = '\n'

/-- A mark of three characters stands alone at the beginning of a line. -/
def isMark (mark : List Char) (c : Cursor) : Bool :=
  c.column == 0 && c.rest.take 3 == mark && isBlankOrEnd (c.rest.drop 3)

/-- A document begins here. -/
def isStart (c : Cursor) : Bool :=
  c.isMark ['-', '-', '-']

/-- A document ends here. -/
def isStop (c : Cursor) : Bool :=
  c.isMark ['.', '.', '.']

/-- Nothing more of this document follows. -/
def atEnd (c : Cursor) : Bool :=
  c.rest.isEmpty || c.isStart || c.isStop

/-- Skip blanks, comments and line ends, and say whether a line end was among them. A tab may not stand
    in the indentation of a line, except within brackets. -/
def skipFrom? (inBrackets : Bool) : List Char → (column : Nat) → (crossed : Bool) →
    Option (Bool × Cursor)
  | ' ' :: rest, column, crossed => skipFrom? inBrackets rest (column + 1) crossed
  | '\t' :: rest, column, crossed =>
    if crossed && !inBrackets then none else skipFrom? inBrackets rest (column + 1) crossed
  | '\n' :: rest, _, _ => skipFrom? inBrackets rest 0 true
  | '#' :: rest, column, crossed => skipComment rest column crossed
  | rest, column, crossed => some (crossed, ⟨rest, column⟩)
where
  /-- Skip the rest of a comment. -/
  skipComment : List Char → Nat → Bool → Option (Bool × Cursor)
    | '\n' :: rest, _, _ => skipFrom? inBrackets rest 0 true
    | _ :: rest, column, crossed => skipComment rest column crossed
    | [], column, crossed => some (crossed, ⟨[], column⟩)

/-- Skip what lies before the next token. -/
def skip? (inBrackets : Bool) (c : Cursor) : Option (Bool × Cursor) :=
  skipFrom? inBrackets c.rest c.column false

/-- Skip the blanks of a line. -/
def skipBlanks (c : Cursor) : Cursor :=
  c.forward (c.rest.takeWhile fun x => x = ' ' || x = '\t').length

/-- Skip line ends and the blanks after them, and count the line ends. -/
def skipLines : List Char → (column lines : Nat) → Nat × Cursor
  | '\n' :: rest, _, lines => skipLines rest 0 (lines + 1)
  | ' ' :: rest, column, lines | '\t' :: rest, column, lines => skipLines rest (column + 1) lines
  | rest, column, lines => (lines, ⟨rest, column⟩)

/-- What line ends in the middle of a text stand for: a blank for a single one, and for more of them one
    line end less. -/
def foldedLines (lines : Nat) : List Char :=
  if lines ≤ 1 then [' '] else List.replicate (lines - 1) '\n'

end Cursor

end Telemetry.Yaml

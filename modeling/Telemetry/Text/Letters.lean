-- SUMMARY: Comparing words without regard to case, with the full case rules for words of plain letters.

/-!
# Words in any case

A word of plain ASCII letters is recognised in any case. The case rules are those of all scripts: a
few characters outside ASCII become plain letters when their case is changed, and a text that holds
one of them can spell a plain word. A character that never becomes a plain letter keeps its own form,
for it can be part of no such word.
-/

namespace Telemetry.Text

/-- The upper-case form of a character, as far as it is made of ASCII characters. -/
def upperChar (c : Char) : List Char :=
  match c with
  | 'ı' => ['I']
  | 'ſ' => ['S']
  | 'ß' => ['S', 'S']
  | 'ﬀ' => ['F', 'F']
  | 'ﬁ' => ['F', 'I']
  | 'ﬂ' => ['F', 'L']
  | 'ﬃ' => ['F', 'F', 'I']
  | 'ﬄ' => ['F', 'F', 'L']
  | 'ﬅ' => ['S', 'T']
  | 'ﬆ' => ['S', 'T']
  | _ => [c.toUpper]

/-- The lower-case form of a character, as far as it is an ASCII character: the Kelvin sign is the
    one letter outside ASCII whose lower case is a plain letter. -/
def lowerChar (c : Char) : Char :=
  if c = '\u212a' then 'k' else c.toLower

/-- A text in upper case. -/
def upper (text : String) : String :=
  String.ofList (text.toList.flatMap upperChar)

/-- A text in lower case. -/
def lower (text : String) : String :=
  String.ofList (text.toList.map lowerChar)

end Telemetry.Text

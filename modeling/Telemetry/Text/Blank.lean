-- SUMMARY: Blank characters and trimming.

/-!
# Blanks

The characters that count as white space in any script, and texts without blanks at their ends.
-/

namespace Telemetry.Text

/-- White space: the ASCII blanks, the vertical tab and form feed among them, and the spaces and
    line ends of other scripts. -/
def isBlank (c : Char) : Bool :=
  let n := c.toNat
  (9 ≤ n && n ≤ 13) || n = 32 || n = 0x85 || n = 0xa0 || n = 0x1680
    || (0x2000 ≤ n && n ≤ 0x200a) || n = 0x2028 || n = 0x2029 || n = 0x202f || n = 0x205f
    || n = 0x3000

/-- Characters at both ends that satisfy `drop` are left out. -/
def trimChars (drop : Char → Bool) (chars : List Char) : List Char :=
  ((chars.dropWhile drop).reverse.dropWhile drop).reverse

/-- A text without the blanks at its ends. -/
def trim (text : String) : String :=
  String.ofList (trimChars isBlank text.toList)

end Telemetry.Text

-- SUMMARY: Conversions of domain names to ASCII, the characters that no name may hold, and one conversion.
import Telemetry.Text.Unprinted
import Telemetry.Url.Punycode

/-!
# Domain names

Addresses are read with a conversion of domain names to ASCII. Which characters a name may hold, and which
of them stand for which others, is laid down in tables of Unicode. These are no part of the reader of
addresses: it takes any conversion.

The conversion given here is one for running programs. It brings a name to ASCII label by label. Characters
are mapped to their lower-case forms, full stops of other scripts separate labels too, and invisible
characters are dropped; a label that then holds characters beyond ASCII is written in Punycode. A label with
the mark of Punycode has to be in ASCII and to denote such a label.

It covers ASCII, the Latin, Greek, Cyrillic and Armenian letters whose capitals follow a rule, and few other
characters. It neither composes a letter and its accent nor takes ligatures and circled letters apart, and it
has no rules for the direction of writing and for joiners. A name that needs any of these is brought to
another name than the tables of Unicode say.
-/

namespace Telemetry.Url

/-- A conversion of domain names to ASCII, with `none` for a text that is no domain name. -/
abbrev ToAscii := List Char → Option (List Char)

namespace Domain

/-- The ASCII characters that no name may hold. -/
def isForbidden (c : Char) : Bool :=
  c.toNat ≤ 0x20 || c.toNat = 0x7f
    || ['#', '%', '/', ':', '<', '>', '?', '@', '[', '\\', ']', '^', '|'].contains c

/-- The mark of a label in Punycode. -/
def punycodeMark : List Char := "xn--".toList

/-- The labels of a name. -/
def labels (name : List Char) : List (List Char) :=
  name.splitOn '.'

-- ---------------------------------------------------------------------------
-- Characters
-- ---------------------------------------------------------------------------

/-- The offset from a letter to its lower-case form in the alphabets that keep a fixed distance. -/
def fixedOffset? (n : Nat) : Option Nat :=
  if 0x41 ≤ n && n ≤ 0x5a then some 32
  else if 0xc0 ≤ n && n ≤ 0xde && n ≠ 0xd7 then some 32
  else if 0x391 ≤ n && n ≤ 0x3a9 then some 32
  else if n = 0x386 then some 38
  else if 0x388 ≤ n && n ≤ 0x38a then some 37
  else if n = 0x38c then some 64
  else if n = 0x38e || n = 0x38f then some 63
  else if 0x400 ≤ n && n ≤ 0x40f then some 80
  else if 0x410 ≤ n && n ≤ 0x42f then some 32
  else if 0x531 ≤ n && n ≤ 0x556 then some 48
  else none

/-- The letter is the upper-case one of a pair that stands side by side. -/
def isUpperOfPair (n : Nat) : Bool :=
  let even := n % 2 = 0
  let odd := n % 2 = 1
  (even && ((0x100 ≤ n && n ≤ 0x12e) || (0x132 ≤ n && n ≤ 0x136) || (0x14a ≤ n && n ≤ 0x176)
      || (0x3d8 ≤ n && n ≤ 0x3ee) || (0x460 ≤ n && n ≤ 0x480) || (0x48a ≤ n && n ≤ 0x4be)
      || (0x4d0 ≤ n && n ≤ 0x52e) || (0x1e00 ≤ n && n ≤ 0x1e94) || (0x1ea0 ≤ n && n ≤ 0x1efe)))
    || (odd && ((0x139 ≤ n && n ≤ 0x147) || (0x179 ≤ n && n ≤ 0x17d) || (0x4c1 ≤ n && n ≤ 0x4cd)))

/-- The character is dropped from names. -/
def isIgnored (n : Nat) : Bool :=
  n = 0xad || n = 0x34f || (0x180b ≤ n && n ≤ 0x180f) || n = 0x200b || n = 0x2060
    || n = 0x2064 || (0xfe00 ≤ n && n ≤ 0xfe0f) || n = 0xfeff || (0xe0100 ≤ n && n ≤ 0xe01ef)

/-- The characters that stand for a character of a name. -/
def mapChar (c : Char) : List Char :=
  let n := c.toNat
  if isIgnored n then []
  else if n = 0x3002 || n = 0xff0e || n = 0xff61 then ['.']
  else if 0xff01 ≤ n && n ≤ 0xff5e then [(Char.ofNat (n - 0xfee0)).toLower]
  else if n = 0x130 then ['i', Char.ofNat 0x307]
  else if n = 0x178 then [Char.ofNat 0xff]
  else if n = 0x17f then ['s']
  else if n = 0x1e9e then [Char.ofNat 0xdf]
  else if n = 0xaa then ['a']
  else if n = 0xba then ['o']
  else if n = 0xb2 then ['2']
  else if n = 0xb3 then ['3']
  else if n = 0xb5 then [Char.ofNat 0x3bc]
  else if n = 0xb9 then ['1']
  else if n = 0x212a then ['k']
  else if n = 0x212b then [Char.ofNat 0xe5]
  else if isUpperOfPair n then [Char.ofNat (n + 1)]
  else
    match fixedOffset? n with
    | some offset => [Char.ofNat (n + offset)]
    | none => [c]

-- ---------------------------------------------------------------------------
-- Labels
-- ---------------------------------------------------------------------------

/-- The character may stand in a label. -/
def isValid (c : Char) : Bool :=
  if c.toNat < 0x80 then !isForbidden c else !Text.isUnprinted c

/-- A label with characters beyond ASCII may not begin with an extending mark. -/
def isValidLabel (label : List Char) : Bool :=
  label.all isValid && !label.head?.any fun c => 0x80 ≤ c.toNat && Text.isExtender c

/-- A mapped label in ASCII. -/
def labelToAscii? (label : List Char) : Option (List Char) :=
  if !isValidLabel label then none
  else if label.any fun c => 0x80 ≤ c.toNat then
    if label.take 4 = punycodeMark then none else some (punycodeMark ++ Punycode.encode label)
  else if label.take 4 = punycodeMark then
    match Punycode.decode? (label.drop 4) with
    | some decoded =>
      if isValidLabel decoded && decoded.any (fun c => 0x80 ≤ c.toNat)
          && decoded.take 4 ≠ punycodeMark && decoded.flatMap mapChar = decoded
          && Punycode.encode decoded = label.drop 4 then
        some label
      else none
    | none => none
  else some label

/-- The conversion of a name, label by label. -/
def toAscii? (name : List Char) : Option (List Char) := do
  let parts ← (labels (name.flatMap mapChar)).mapM labelToAscii?
  some (List.intercalate ['.'] parts)

end Domain

end Telemetry.Url

/-!
# Blank characters

`Text.isBlank` is the Unicode property `White_Space`, written out as a table of ranges.
`Text.trim` drops the blank characters at both ends of a text and keeps the others.
-/

namespace QuoteFeed.Text

/-- The ranges of the characters with the property `White_Space`, both ends included. -/
def blankRanges : List (Nat × Nat) :=
  [(0x09, 0x0D), (0x20, 0x20), (0x85, 0x85), (0xA0, 0xA0), (0x1680, 0x1680),
   (0x2000, 0x200A), (0x2028, 0x2029), (0x202F, 0x202F), (0x205F, 0x205F), (0x3000, 0x3000)]

/-- The property `White_Space`. -/
def isBlank (c : Char) : Bool :=
  blankRanges.any fun r => r.1 ≤ c.toNat && c.toNat ≤ r.2

/-- A list of characters without its leading blanks. -/
def trimStartChars (s : List Char) : List Char :=
  s.dropWhile isBlank

/-- A list of characters without its trailing blanks. -/
def trimEndChars (s : List Char) : List Char :=
  (s.reverse.dropWhile isBlank).reverse

/-- A list of characters without the blanks at its two ends. -/
def trimChars (s : List Char) : List Char :=
  trimEndChars (trimStartChars s)

/-- A text without the blanks at its two ends. -/
def trim (s : String) : String :=
  String.ofList (trimChars s.toList)

/-- A text with nothing but blanks in it. -/
def isBlankText (s : String) : Bool :=
  s.toList.all isBlank

end QuoteFeed.Text

/-!
# Letters up to case

`Text.sameLetters` compares two texts up to the case of the letters `A` to `Z`; all other
characters are compared as they are.  `Text.lowersTo` compares the full lower case of a text
with a word of basic letters.  Outside `A` to `Z` one character alone has a basic letter as
its lower case: the Kelvin sign, whose lower case is `k`.
-/

namespace QuoteFeed.Text

/-- Equality of texts up to the case of the letters `A` to `Z`. -/
def sameLetters (s t : String) : Bool :=
  s.toList.map Char.toLower == t.toList.map Char.toLower

/-- The text with the letters `a` to `z` in upper case. -/
def upperCase (s : String) : String :=
  String.ofList (s.toList.map Char.toUpper)

/-- The Kelvin sign, the one character outside `A` to `Z` whose lower case is a basic letter. -/
def kelvinSign : Char := '\u212A'

/-- The lower case of a character, where that is a basic letter, and the character itself
elsewhere. -/
def lowerBasic (c : Char) : Char :=
  if c = kelvinSign then 'k' else c.toLower

/-- `lowersTo word s`: the full lower case of `s` is `word`, a word of the letters `a` to `z`. -/
def lowersTo (word s : String) : Bool :=
  s.toList.map lowerBasic == word.toList

end QuoteFeed.Text

import QuoteFeed.Json.Value
import QuoteFeed.Text.Numeral

/-!
# Writing JSON

`Value.render` writes a value without white space.  In a string the quote, the backslash and
the characters below the space are escaped, those with a letter of their own by it and the
others by four lower-case hexadecimal digits; all else stands as it is.
-/

namespace QuoteFeed.Json

/-- A hexadecimal digit in lower case. -/
def hexDigit (n : Nat) : Char :=
  if n < 10 then Char.ofNat ('0'.toNat + n) else Char.ofNat ('a'.toNat + (n - 10))

/-- The escape of a code unit. -/
def unitEscape (n : Nat) : List Char :=
  ['\\', 'u', hexDigit (n / 4096 % 16), hexDigit (n / 256 % 16), hexDigit (n / 16 % 16),
    hexDigit (n % 16)]

/-- A character as it is written inside a string. -/
def escape (c : Char) : List Char :=
  if c = '"' then ['\\', '"']
  else if c = '\\' then ['\\', '\\']
  else if c = '\x08' then ['\\', 'b']
  else if c = '\x0C' then ['\\', 'f']
  else if c = '\n' then ['\\', 'n']
  else if c = '\r' then ['\\', 'r']
  else if c = '\t' then ['\\', 't']
  else if c.toNat < 0x20 then unitEscape c.toNat
  else [c]

/-- A string with its quotes. -/
def renderString (s : List Char) : List Char :=
  '"' :: s.flatMap escape ++ ['"']

/-- An exponent with its mark. -/
def renderExponent (e : Exponent) : List Char :=
  'e' :: (if e.negative then '-' :: e.digits else e.digits)

/-- A number as it is written. -/
def renderNumber (n : Number) : List Char :=
  (if n.negative then ['-'] else []) ++ n.whole ++
    (if n.fraction.isEmpty then [] else '.' :: n.fraction) ++
    (n.exponent.map renderExponent).getD []

/-- A string that spells no text is written as the replacement character. -/
def renderKey (s : Option String) : List Char :=
  renderString ((s.getD "\uFFFD").toList)

mutual

/-- A value without white space. -/
def Value.render : Value → List Char
  | .null => ['n', 'u', 'l', 'l']
  | .bool true => ['t', 'r', 'u', 'e']
  | .bool false => ['f', 'a', 'l', 's', 'e']
  | .number n => renderNumber n
  | .string s => renderKey s
  | .array vs => '[' :: renderItems vs ++ [']']
  | .object ms => '{' :: renderMembers ms ++ ['}']

/-- Items with commas between them. -/
def renderItems : List Value → List Char
  | [] => []
  | [v] => v.render
  | v :: vs => v.render ++ ',' :: renderItems vs

/-- Members with commas between them. -/
def renderMembers : List (Option String × Value) → List Char
  | [] => []
  | [(k, v)] => renderKey k ++ ':' :: v.render
  | (k, v) :: ms => renderKey k ++ ':' :: v.render ++ ',' :: renderMembers ms

end

/-- A value as text. -/
def Value.toText (v : Value) : String :=
  String.ofList v.render

/-- The value of a count. -/
def Value.nat (n : Nat) : Value :=
  .number (.ofDigits (Numeral.ofNat n))

/-- The value of an optional part, `null` where it is absent. -/
def Value.optional {α : Type} (write : α → Value) : Option α → Value
  | none => .null
  | some a => write a

end QuoteFeed.Json

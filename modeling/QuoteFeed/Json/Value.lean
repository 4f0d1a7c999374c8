/-!
# JSON values

A JSON text as a tree.  Members keep their order and their repetitions.  A number is kept as
it was written, since a reader decides whether it wants a whole number or a decimal.  A string
is an optional text: `none` stands for a string with an escape of half a surrogate pair, which
is well formed but spells no text.
-/

namespace QuoteFeed.Json

/-- The exponent of a number: its sign and its digits. -/
structure Exponent where
  negative : Bool
  digits : List Char
  deriving DecidableEq

/-- A number as written: a sign, the digits before and after the point, and an exponent. -/
structure Number where
  negative : Bool
  whole : List Char
  fraction : List Char
  exponent : Option Exponent
  deriving DecidableEq

/-- A number without a point and without an exponent. -/
def Number.isWhole (n : Number) : Bool :=
  n.fraction.isEmpty && n.exponent.isNone

/-- The number written with the given digits alone. -/
def Number.ofDigits (ds : List Char) : Number :=
  ⟨false, ds, [], none⟩

/-- A JSON value. -/
inductive Value where
  | null
  | bool (b : Bool)
  | number (n : Number)
  | string (s : Option String)
  | array (items : List Value)
  | object (members : List (Option String × Value))

/-- The value of a text. -/
def Value.text (s : String) : Value :=
  .string (some s)

/-- An object with the given members. -/
def Value.record (members : List (String × Value)) : Value :=
  .object (members.map fun m => (some m.1, m.2))

end QuoteFeed.Json

/-!
# Numerals

Decimal numerals of the natural numbers.  `Numeral.ofNat` writes one, `Numeral.value` is the
number that a list of digits stands for.  `Numeral.unsigned?` reads the text of a bounded
count: an optional `+`, then digits only, at least one, and a value within the bound.
-/

namespace QuoteFeed.Numeral

/-- The value of a decimal digit. -/
def digitValue (c : Char) : Nat :=
  c.toNat - '0'.toNat

/-- The number that a list of digits stands for, most significant digit first. -/
def value (ds : List Char) : Nat :=
  ds.foldl (fun n c => 10 * n + digitValue c) 0

/-- The digits of a number, without leading zeros. -/
def ofNat (n : Nat) : List Char :=
  Nat.toDigits 10 n

/-- A nonempty list of digits. -/
def isDigits (ds : List Char) : Bool :=
  !ds.isEmpty && ds.all Char.isDigit

/-- A numeral with an optional leading `+`. -/
def unbounded? : List Char → Option Nat
  | '+' :: ds => if isDigits ds then some (value ds) else none
  | ds => if isDigits ds then some (value ds) else none

/-- A numeral with an optional leading `+` and a value of at most `limit`. -/
def unsigned? (limit : Nat) (s : List Char) : Option Nat :=
  (unbounded? s).filter (· ≤ limit)

/-- The greatest number of 16 bits. -/
def max16 : Nat := Nat.pow 2 16 - 1

/-- The greatest number of 32 bits. -/
def max32 : Nat := Nat.pow 2 32 - 1

/-- The greatest number of 64 bits. -/
def max64 : Nat := Nat.pow 2 64 - 1

/-- A number as text. -/
def text (n : Nat) : String :=
  String.ofList (ofNat n)

/-- A number in at least `width` digits, with leading zeros. -/
def padded (width n : Nat) : List Char :=
  let ds := ofNat n
  List.replicate (width - ds.length) '0' ++ ds

end QuoteFeed.Numeral

import QuoteFeed.Settings
import QuoteFeed.Text.Utf8

/-!
# Queries in form encoding

A query is a list of names and values, `name=value` with `&` between them.  A plus sign stands for
a space and `%` with two hexadecimal digits for a byte; other percent signs stand for themselves.
-/

namespace QuoteFeed.Form

/-- The value of a hexadecimal digit. -/
def hexValue? (b : Nat) : Option Nat :=
  if 0x30 ≤ b ∧ b ≤ 0x39 then some (b - 0x30)
  else if 0x41 ≤ b ∧ b ≤ 0x46 then some (b - 0x41 + 10)
  else if 0x61 ≤ b ∧ b ≤ 0x66 then some (b - 0x61 + 10)
  else none

/-- The bytes that an encoded part stands for. -/
def unescape : List Nat → List Nat
  | [] => []
  | b :: bs =>
    if b = 0x2B then
      0x20 :: unescape bs
    else if b = 0x25 then
      match bs with
      | h :: l :: rest =>
        match hexValue? h, hexValue? l with
        | some h, some l => (h * 16 + l) :: unescape rest
        | _, _ => b :: unescape (h :: l :: rest)
      | bs => b :: unescape bs
    else
      b :: unescape bs

/-- The bytes of characters. -/
def bytes (s : List Char) : List Nat :=
  (String.ofList s).toUTF8.toList.map UInt8.toNat

/-- The text of an encoded part. -/
def decode (s : List Char) : String :=
  String.ofList (Utf8.decodeLossy (unescape (bytes s)))

/-- A part of a query: what is before its first equals sign and what is after it. -/
def pair (s : List Char) : String × String :=
  (decode (s.takeWhile (· ≠ '=')), decode ((s.dropWhile (· ≠ '=')).drop 1))

/-- The names and values of a query. -/
def parse (s : List Char) : List (String × String) :=
  ((splitAtMark '&' s).filter (!·.isEmpty)).map pair

end QuoteFeed.Form

/-!
# Reading UTF-8

`Utf8.decodeLossy` reads bytes as UTF-8.  Where they are no UTF-8, the longest start of a
character that was met, or a single byte, is read as the replacement character.  `Utf8.decode?`
accepts only bytes that are UTF-8 throughout.
-/

namespace QuoteFeed.Utf8

/-- The replacement character. -/
def replacement : Char := '\uFFFD'

/-- A byte after the first of a character. -/
def isTail (b : Nat) : Bool :=
  0x80 ≤ b && b ≤ 0xBF

/-- The number of bytes of a character by its first byte, or zero if none starts so. -/
def width (b : Nat) : Nat :=
  if b < 0x80 then 1
  else if 0xC2 ≤ b ∧ b ≤ 0xDF then 2
  else if 0xE0 ≤ b ∧ b ≤ 0xEF then 3
  else if 0xF0 ≤ b ∧ b ≤ 0xF4 then 4
  else 0

/-- A second byte that can follow a first one: no surrogates, no overlong forms, nothing beyond the
last character. -/
def isSecond (b c : Nat) : Bool :=
  if b = 0xE0 then 0xA0 ≤ c && c ≤ 0xBF
  else if b = 0xED then 0x80 ≤ c && c ≤ 0x9F
  else if b = 0xF0 then 0x90 ≤ c && c ≤ 0xBF
  else if b = 0xF4 then 0x80 ≤ c && c ≤ 0x8F
  else isTail c

/-- The tail bytes at the head of a list, at most so many. -/
def tails (n : Nat) (bs : List Nat) : List Nat :=
  (bs.take n).takeWhile isTail

/-- The longest start of a character at the head of the bytes `b :: bs`, without `b`. -/
def startTail (b : Nat) : List Nat → List Nat
  | [] => []
  | c :: bs =>
    if width b ≥ 2 ∧ isSecond b c then c :: tails (width b - 2) bs else []

/-- The number spelled by the bytes of a character. -/
def codePoint (b : Nat) (tail : List Nat) : Nat :=
  let head := match width b with
    | 2 => b % 0x20
    | 3 => b % 0x10
    | 4 => b % 0x08
    | _ => b
  tail.foldl (fun n c => n * 0x40 + c % 0x40) head

/-- The character that starts with `b`, and the bytes after it or after its start. -/
def next (b : Nat) (bs : List Nat) : Option Char × List Nat :=
  let tail := startTail b bs
  let rest := bs.drop tail.length
  if width b = tail.length + 1 then (some (Char.ofNat (codePoint b tail)), rest) else (none, rest)

/-- The characters of some bytes, `none` for each place where they are no UTF-8. -/
def scan : (fuel : Nat) → List Nat → List (Option Char)
  | 0, _ => []
  | _, [] => []
  | fuel + 1, b :: bs =>
    let (c, rest) := next b bs
    c :: scan fuel rest

/-- The characters of some bytes, with replacements. -/
def decodeLossy (bs : List Nat) : List Char :=
  (scan bs.length bs).map (·.getD replacement)

/-- The characters of bytes that are UTF-8. -/
def decode? (bs : List Nat) : Option (List Char) :=
  (scan bs.length bs).mapM id

end QuoteFeed.Utf8

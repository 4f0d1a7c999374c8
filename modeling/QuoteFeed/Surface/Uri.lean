import QuoteFeed.Text.Letter

/-!
# Addresses of services

`Uri.isValid` decides whether a text is an address: a path, an authority, or an absolute address
of a scheme, an authority, a path and a query.  The text is taken as bytes, and all bytes beyond
ASCII are allowed in a path and in a query.
-/

namespace QuoteFeed.Uri

/-- The longest address, in bytes. -/
def maxLength : Nat := 65534

/-- The longest scheme. -/
def maxScheme : Nat := 64

/-- The largest number of colons in an authority. -/
def maxColons : Nat := 8

/-- The bytes of a text. -/
def bytes (s : String) : List Nat :=
  s.toUTF8.toList.map UInt8.toNat

/-- The byte of an ASCII character. -/
def byte (c : Char) : Nat := c.toNat

/-- A letter or a digit. -/
def isAlphanumeric (b : Nat) : Bool :=
  (Char.ofNat b).isAlphanum && b < 0x80

/-- A byte of a scheme. -/
def isSchemeByte (b : Nat) : Bool :=
  isAlphanumeric b || [byte '+', byte '-', byte '.', byte '~'].contains b

/-- A byte that may stand in an authority. -/
def isAuthorityByte (b : Nat) : Bool :=
  isAlphanumeric b || ("!$&'()*+,-.:;=@[]_~".toList.map byte).contains b

/-- A byte of a path. -/
def isPathByte (b : Nat) : Bool :=
  b = 0x21 || (0x24 ≤ b && b ≤ 0x3B) || b = 0x3D || (0x40 ≤ b && b ≤ 0x5F) ||
    (0x61 ≤ b && b ≤ 0x7A) || b = 0x7C || b = 0x7E || b ≥ 0x7F || b = 0x22 || b = 0x7B || b = 0x7D

/-- A byte of a query. -/
def isQueryByte (b : Nat) : Bool :=
  b = 0x21 || (0x24 ≤ b && b ≤ 0x3B) || b = 0x3D || (0x3F ≤ b && b ≤ 0x7E) || b ≥ 0x7F

/-- A byte that ends an authority. -/
def endsAuthority (b : Nat) : Bool :=
  [byte '/', byte '?', byte '#'].contains b

/-- What was met in an authority so far. -/
structure AuthorityScan where
  colons : Nat
  opened : Bool
  closed : Bool
  percent : Bool
  lastAt : Bool

/-- The scan before the first byte. -/
def AuthorityScan.start : AuthorityScan := ⟨0, false, false, false, false⟩

/-- The scan after one more byte.  A pair of brackets stands once, and inside and before it, as
before an `@`, colons and percent signs are free. -/
def AuthorityScan.next? (x : AuthorityScan) (b : Nat) : Option AuthorityScan :=
  let x := { x with lastAt := b = byte '@' }
  if b = byte ':' then
    if x.colons ≥ maxColons then none else some { x with colons := x.colons + 1 }
  else if b = byte '[' then
    if x.percent ∨ x.opened then none else some { x with opened := true }
  else if b = byte ']' then
    if x.closed ∨ !x.opened then none else some { x with closed := true, colons := 0, percent := false }
  else if b = byte '@' then
    some { x with colons := 0, percent := false }
  else if b = byte '%' then
    some { x with percent := true }
  else if isAuthorityByte b then
    some x
  else
    none

/-- An authority is complete. -/
def AuthorityScan.accepts (x : AuthorityScan) : Bool :=
  x.opened == x.closed && x.colons ≤ 1 && !x.lastAt && !x.percent

/-- The bytes are an authority. -/
def isAuthority (bs : List Nat) : Bool :=
  ((bs.foldlM AuthorityScan.next? .start).map AuthorityScan.accepts).getD false

/-- The bytes are a query, up to a fragment. -/
def isQuery : List Nat → Bool
  | [] => true
  | b :: bs => b = byte '#' || (isQueryByte b && isQuery bs)

/-- The bytes are a path with or without a query, up to a fragment. -/
def isPathAndQuery : List Nat → Bool
  | [] => true
  | b :: bs => if b = byte '?' then isQuery bs
    else b = byte '#' || (isPathByte b && isPathAndQuery bs)

/-- The bytes after a leading scheme and its mark, if there is a mark.  The scheme may be empty. -/
def afterScheme? (bs : List Nat) : Option (List Nat) :=
  let rest := bs.dropWhile isSchemeByte
  if rest.take 3 = [byte ':', byte '/', byte '/'] then some (rest.drop 3) else none

/-- The bytes are an address after its scheme. -/
def isHierarchy (bs : List Nat) : Bool :=
  let authority := bs.takeWhile (!endsAuthority ·)
  authority ≠ [] && isAuthority authority && isPathAndQuery (bs.dropWhile (!endsAuthority ·))

/-- The bytes are an address. -/
def isAddress (bs : List Nat) : Bool :=
  match bs with
  | [] => false
  | [b] => b = byte '/' || b = byte '*' || isAuthority [b]
  | b :: _ =>
    if b = byte '/' then
      isPathAndQuery bs
    else
      match afterScheme? bs with
      | some rest => (bs.takeWhile isSchemeByte).length ≤ maxScheme && isHierarchy rest
      | none => isAuthority bs

/-- The text is an address. -/
def isValid (s : String) : Bool :=
  let bs := bytes s
  bs.length ≤ maxLength && isAddress bs

end QuoteFeed.Uri

import QuoteFeed.Json.Value

/-!
# Reading JSON

`Json.read?` reads a text that holds one value, with JSON white space around it.  Control
characters inside a string, numbers with leading zeros, trailing commas and anything after the
value are refused.  Nesting is limited by nothing but the length of the text: each step of the
reader either consumes a character or goes from a list to its first element, so twice the length
is fuel enough.
-/

namespace QuoteFeed.Json

/-- JSON white space. -/
def isSpace (c : Char) : Bool :=
  c == ' ' || c == '\t' || c == '\n' || c == '\r'

/-- The text from its first character that is no white space. -/
def skipSpace (s : List Char) : List Char :=
  s.dropWhile isSpace

/-! ### Strings -/

/-- A piece of a string: a character, or a code unit given by its number. -/
inductive Piece where
  | char (c : Char)
  | unit (n : Nat)

/-- The value of a hexadecimal digit. -/
def hexValue? (c : Char) : Option Nat :=
  if c.isDigit then some (c.toNat - '0'.toNat)
  else if 'a' ≤ c ∧ c ≤ 'f' then some (c.toNat - 'a'.toNat + 10)
  else if 'A' ≤ c ∧ c ≤ 'F' then some (c.toNat - 'A'.toNat + 10)
  else none

/-- The code unit spelled by four hexadecimal digits. -/
def hexUnit? (a b c d : Char) : Option Nat := do
  return (((← hexValue? a) * 16 + (← hexValue? b)) * 16 + (← hexValue? c)) * 16 + (← hexValue? d)

/-- The character that a one-letter escape stands for. -/
def escaped? : Char → Option Char
  | '"' => some '"'
  | '\\' => some '\\'
  | '/' => some '/'
  | 'b' => some '\x08'
  | 'f' => some '\x0C'
  | 'n' => some '\n'
  | 'r' => some '\r'
  | 't' => some '\t'
  | _ => none

/-- The pieces of a string up to its closing quote, and what follows the quote. -/
def readPieces? : List Char → Option (List Piece × List Char)
  | [] => none
  | '"' :: r => some ([], r)
  | '\\' :: 'u' :: a :: b :: c :: d :: r => do
    let n ← hexUnit? a b c d
    let (ps, r) ← readPieces? r
    return (.unit n :: ps, r)
  | '\\' :: e :: r => do
    let c ← escaped? e
    let (ps, r) ← readPieces? r
    return (.char c :: ps, r)
  | c :: r =>
    if c == '\\' || c.toNat < 0x20 then
      none
    else do
      let (ps, r) ← readPieces? r
      return (.char c :: ps, r)

/-- A code unit that starts a surrogate pair. -/
def isHigh (n : Nat) : Bool :=
  0xD800 ≤ n && n < 0xDC00

/-- A code unit that ends a surrogate pair. -/
def isLow (n : Nat) : Bool :=
  0xDC00 ≤ n && n < 0xE000

/-- The characters spelled by the pieces, if every surrogate stands in a pair. -/
def assemble? : List Piece → Option (List Char)
  | [] => some []
  | .char c :: ps => (assemble? ps).map (c :: ·)
  | .unit n :: ps =>
    if isHigh n then
      match ps with
      | .unit m :: ps =>
        if isLow m then
          (assemble? ps).map (Char.ofNat (0x10000 + (n - 0xD800) * 0x400 + (m - 0xDC00)) :: ·)
        else
          none
      | _ => none
    else if isLow n then
      none
    else
      (assemble? ps).map (Char.ofNat n :: ·)

/-- Reads a string after its opening quote. -/
def readString? (s : List Char) : Option (Option String × List Char) :=
  (readPieces? s).map fun (ps, r) => ((assemble? ps).map String.ofList, r)

/-! ### Numbers -/

/-- Reads a nonempty run of digits. -/
def readDigits? (s : List Char) : Option (List Char × List Char) :=
  let ds := s.takeWhile Char.isDigit
  if ds.isEmpty then none else some (ds, s.dropWhile Char.isDigit)

/-- Reads the digits before the point: a zero alone, or digits that start with none. -/
def readWhole? : List Char → Option (List Char × List Char)
  | '0' :: c :: r => if c.isDigit then none else some (['0'], c :: r)
  | s => readDigits? s

/-- Reads the digits after the point, if there is a point. -/
def readFraction? : List Char → Option (List Char × List Char)
  | '.' :: s => readDigits? s
  | s => some ([], s)

/-- Reads the digits of an exponent after its sign. -/
def readExponentDigits? (negative : Bool) (s : List Char) : Option (Option Exponent × List Char) :=
  (readDigits? s).map fun (ds, r) => (some ⟨negative, ds⟩, r)

/-- Reads the sign and the digits of an exponent. -/
def readSignedExponent? : List Char → Option (Option Exponent × List Char)
  | '-' :: s => readExponentDigits? true s
  | '+' :: s => readExponentDigits? false s
  | s => readExponentDigits? false s

/-- Reads an exponent, if there is one. -/
def readExponent? : List Char → Option (Option Exponent × List Char)
  | 'e' :: s => readSignedExponent? s
  | 'E' :: s => readSignedExponent? s
  | s => some (none, s)

/-- Reads a number after its sign. -/
def readUnsigned? (negative : Bool) (s : List Char) : Option (Number × List Char) := do
  let (whole, s) ← readWhole? s
  let (fraction, s) ← readFraction? s
  let (exponent, s) ← readExponent? s
  return (⟨negative, whole, fraction, exponent⟩, s)

/-- Reads a number. -/
def readNumber? : List Char → Option (Number × List Char)
  | '-' :: s => readUnsigned? true s
  | s => readUnsigned? false s

/-! ### Values -/

mutual

/-- Reads the value at the head of the text. -/
def readValue? : Nat → List Char → Option (Value × List Char)
  | 0, _ => none
  | fuel + 1, s =>
    match s with
    | 'n' :: 'u' :: 'l' :: 'l' :: r => some (.null, r)
    | 't' :: 'r' :: 'u' :: 'e' :: r => some (.bool true, r)
    | 'f' :: 'a' :: 'l' :: 's' :: 'e' :: r => some (.bool false, r)
    | '"' :: r => (readString? r).map fun (t, r) => (.string t, r)
    | '[' :: r =>
      match skipSpace r with
      | ']' :: r => some (.array [], r)
      | r => (readItems? fuel r).map fun (vs, r) => (.array vs, r)
    | '{' :: r =>
      match skipSpace r with
      | '}' :: r => some (.object [], r)
      | r => (readMembers? fuel r).map fun (ms, r) => (.object ms, r)
    | s => (readNumber? s).map fun (n, r) => (.number n, r)

/-- Reads the items of an array up to its closing bracket. -/
def readItems? : Nat → List Char → Option (List Value × List Char)
  | 0, _ => none
  | fuel + 1, s => do
    let (v, r) ← readValue? fuel (skipSpace s)
    match skipSpace r with
    | ',' :: r => do
      let (vs, r) ← readItems? fuel r
      return (v :: vs, r)
    | ']' :: r => some ([v], r)
    | _ => none

/-- Reads the members of an object up to its closing brace. -/
def readMembers? : Nat → List Char → Option (List (Option String × Value) × List Char)
  | 0, _ => none
  | fuel + 1, s =>
    match skipSpace s with
    | '"' :: r => do
      let (key, r) ← readString? r
      match skipSpace r with
      | ':' :: r => do
        let (v, r) ← readValue? fuel (skipSpace r)
        match skipSpace r with
        | ',' :: r => do
          let (ms, r) ← readMembers? fuel r
          return ((key, v) :: ms, r)
        | '}' :: r => some ([(key, v)], r)
        | _ => none
      | _ => none
    | _ => none

end

/-- Reads a text that holds one value. -/
def read? (s : List Char) : Option Value := do
  let (v, r) ← readValue? (2 * s.length + 2) (skipSpace s)
  if (skipSpace r).isEmpty then some v else none

end QuoteFeed.Json

import QuoteFeed.Decimal.Arithmetic
import QuoteFeed.Text.Numeral

/-!
# Decimals as text

`Decimal.render` writes a decimal with all its places.  `Decimal.parse?` reads the plain form:
an optional sign, digits with at most one point among them, and `_` anywhere after the first
digit.  A digit that no longer fits after the point decides the rounding, and the rest of the
text must then be digits.  `Decimal.parseScientific?` reads a plain form followed by a power of
ten, and `Decimal.ofText?` accepts either form.
-/

namespace QuoteFeed.Decimal

/-- A decimal with all its places, and at least one digit before the point. -/
def render (d : Decimal) : List Char :=
  let ds := Numeral.padded (d.scale + 1) d.mantissa
  let whole := ds.take (ds.length - d.scale)
  let places := ds.drop (ds.length - d.scale)
  (if d.negative then ['-'] else []) ++ whole ++ (if d.scale = 0 then [] else '.' :: places)

/-- A decimal as text. -/
def text (d : Decimal) : String :=
  String.ofList d.render

/-- The value once a digit `c` was met that does not fit: the digit rounds the mantissa, and the
rest must consist of digits and `_`. -/
def rounded? (negative : Bool) (m scale : Nat) (c : Char) (rest : List Char) : Option Decimal := do
  let (m, scale) ←
    if Numeral.digitValue c < 5 then
      some (m, scale)
    else if m + 1 < mantissaBound then
      some (m + 1, scale)
    else if scale = 0 then
      none
    else
      some ((m + 1 + 4) / 10, scale - 1)
  if rest.all fun c => c.isDigit || c == '_' then
    ofParts? (negative && m != 0) m scale
  else
    none

/-- Reads digits onto the mantissa `m`.  `point` says that the point was passed, `started` that
there was a digit. -/
def scan? (negative : Bool) : (m scale : Nat) → (point started : Bool) → List Char → Option Decimal
  | m, scale, _, started, [] =>
    if started then ofParts? (negative && m != 0) m scale else none
  | m, scale, point, started, c :: rest =>
    if c.isDigit then
      let n := m * 10 + Numeral.digitValue c
      if (point && scale == maxScale) || n ≥ mantissaBound then
        if point then rounded? negative m scale c rest else none
      else
        scan? negative n (if point then scale + 1 else scale) point true rest
    else if c == '.' && !point then
      scan? negative m scale true started rest
    else if c == '_' && started then
      scan? negative m scale point started rest
    else
      none

/-- Reads the plain form. -/
def parse? : List Char → Option Decimal
  | '-' :: s => scan? true 0 0 false false s
  | '+' :: s => scan? false 0 0 false false s
  | s => scan? false 0 0 false false s

/-- A decimal divided by `10 ^ e`, rounded half up once the places run out. -/
def shiftDown? (d : Decimal) (e : Nat) : Option Decimal :=
  if e > maxScale then
    none
  else if d.scale + e ≤ maxScale then
    ofParts? d.negative d.mantissa (d.scale + e)
  else
    let k := d.scale + e - maxScale
    ofParts? d.negative ((d.mantissa + 5 * Nat.pow 10 (k - 1)) / Nat.pow 10 k) maxScale

/-- A decimal with as few trailing zeros after the point as possible. -/
def stripZeros (negative : Bool) : (m scale : Nat) → Option Decimal
  | m, 0 => ofParts? negative m 0
  | m, scale + 1 =>
    if m % 10 = 0 then stripZeros negative (m / 10) scale else ofParts? negative m (scale + 1)

/-- A decimal multiplied by `10 ^ e`: places are given up first, and what goes beyond them is
multiplied by at most `10 ^ 19` at a time. -/
def shiftUp? (d : Decimal) (e : Nat) : Option Decimal :=
  if e ≤ d.scale then
    ofParts? d.negative d.mantissa (d.scale - e)
  else if e > maxScale then
    none
  else do
    let first ← ofWhole? false (Nat.pow 10 (min e 19))
    let d ← d.mul? first
    let second ← ofWhole? false (Nat.pow 10 (e - min e 19))
    let d ← if e > 19 then d.mul? second else some d
    if d.mantissa = 0 then some zero else stripZeros d.negative d.mantissa d.scale

/-- Reads a plain form, `e` or `E`, and a power of ten. -/
def parseScientific? (s : List Char) : Option Decimal :=
  let isMark : Char → Bool := fun c => c == 'e' || c == 'E'
  let mantissa := s.takeWhile (!isMark ·)
  match s.dropWhile (!isMark ·) with
  | [] => none
  | _ :: '-' :: e => do
    let d ← parse? mantissa
    shiftDown? d (← Numeral.unbounded? e)
  | _ :: e => do
    let d ← parse? mantissa
    shiftUp? d (← Numeral.unsigned? Numeral.max32 e)

/-- Reads either form. -/
def ofText? (s : List Char) : Option Decimal :=
  parse? s <|> parseScientific? s

end QuoteFeed.Decimal

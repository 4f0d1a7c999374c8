import QuoteFeed.Json.Value
import QuoteFeed.Number.Binary64
import QuoteFeed.Text.Numeral

/-!
# The value of a JSON number

A number without point and exponent is a whole number as long as it fits 64 bits.  Every other
number is a binary64 number, found from the leading digits that fit 64 bits and one power of
ten: the digits are rounded first, then multiplied or divided by the rounded power.
-/

namespace QuoteFeed.Json.Number

/-- The whole number that is written, if it is not negative and fits 64 bits. -/
def unsigned? (n : Number) : Option Nat :=
  if n.isWhole ∧ !n.negative then
    (some (Numeral.value n.whole)).filter (· ≤ Numeral.max64)
  else
    none

/-- The whole number that is written, if it fits 64 bits: up to `2 ^ 64 - 1` without a sign, and
from `-2 ^ 63` to `-1` with one. -/
def whole? (n : Number) : Option Int :=
  if n.isWhole then
    let v := Numeral.value n.whole
    if n.negative then
      if 0 < v ∧ v ≤ Nat.pow 2 63 then some (-(v : Int)) else none
    else if v ≤ Numeral.max64 then some v else none
  else
    none

/-- The whole number that is written, if it fits 64 bits with a sign. -/
def signed? (n : Number) : Option Int :=
  n.whole?.filter (· < Nat.pow 2 63)

/-- The digits absorbed so far, and what is left of the run once one did not fit. -/
def absorb (significand : Nat) : List Char → Nat × List Char
  | [] => (significand, [])
  | c :: ds =>
    let n := significand * 10 + Numeral.digitValue c
    if n ≤ Numeral.max64 then absorb n ds else (significand, c :: ds)

/-- The written exponent. -/
def exponentValue (n : Number) : Int :=
  match n.exponent with
  | none => 0
  | some e => if e.negative then -(Numeral.value e.digits : Int) else Numeral.value e.digits

/-- Scales by a power of ten.  Powers beyond the format are taken in steps of 308; three such
steps down end at zero, so `fuel` is never used up. -/
def scaled? : (fuel : Nat) → Binary64 → Int → Option Binary64
  | 0, f, _ => some f
  | fuel + 1, f, e =>
    if e.natAbs ≤ 308 then do
      let p ← Binary64.tenPower? e.natAbs
      if e ≥ 0 then f.mul? p else f.div? p
    else if f.mantissa = 0 then
      some f
    else if e ≥ 0 then
      none
    else do
      let p ← Binary64.tenPower? 308
      scaled? fuel (← f.div? p) (e + 308)

/-- The magnitude as a binary64 number, `none` if it is too large. -/
def magnitude? (n : Number) : Option Binary64 := do
  let (significand, beyond) := absorb 0 n.whole
  let (significand, ignored) := absorb significand n.fraction
  let e : Int := beyond.length - (n.fraction.length - ignored.length : Nat) + n.exponentValue
  scaled? 8 (← Binary64.ofRatio? ⟨significand, 1⟩) e

end QuoteFeed.Json.Number

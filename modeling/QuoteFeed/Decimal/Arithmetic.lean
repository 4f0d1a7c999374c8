import QuoteFeed.Decimal.Basic

/-!
# Arithmetic of decimals

Sums, products and quotients, rounded to the mantissa of 96 bits and to 28 places.  Sums and
products are exact as long as they fit, and lose as few places as they must, the last one to
the even neighbour.  A quotient is developed a group of at most nine places at a time, until
nothing remains or no place is left.  `none` is an overflow.
-/

namespace QuoteFeed.Decimal

/-! ### Rounding -/

/-- The quotient rounded to the nearest number, a half to the even one. -/
def halfEven (n d : Nat) : Nat :=
  let q := n / d
  let r := n % d
  if 2 * r > d ∨ (2 * r = d ∧ q % 2 = 1) then q + 1 else q

/-- A number without its last digit, rounded to the nearest and a half to the even neighbour,
where `sticky` says that the exact value is a little above the number. -/
def dropDigit (sticky : Bool) (q : Nat) : Nat :=
  let x := q / 10
  let r := q % 10
  if r > 5 ∨ (r = 5 ∧ (sticky ∨ x % 2 = 1)) then x + 1 else x

/-- The fewest places, `least` or more, without which `n` is below the mantissa bound. -/
def excess (least n : Nat) : Option Nat :=
  (List.range' least 64).find? fun k => n / Nat.pow 10 k < mantissaBound

/-- The number `± n · 10 ^ -scale` rounded to a decimal with as many of its places as fit. -/
def fit? (negative : Bool) (n scale : Nat) : Option Decimal := do
  let k ← excess (scale - maxScale) n
  if k > scale then
    none
  else
    let q := halfEven n (Nat.pow 10 k)
    if q < mantissaBound then
      ofParts? negative q (scale - k)
    else if scale = k then
      none
    else
      ofParts? negative (halfEven q 10) (scale - k - 1)

/-! ### Sum and product -/

/-- The product.  A zero factor gives zero without places; so do two factors of 32 bits with
more than 47 places between them. -/
def mul? (a b : Decimal) : Option Decimal :=
  if a.mantissa = 0 ∨ b.mantissa = 0 then
    some zero
  else if a.mantissa < Nat.pow 2 32 ∧ b.mantissa < Nat.pow 2 32 ∧ a.scale + b.scale > 47 then
    some zero
  else
    fit? (a.negative != b.negative) (a.mantissa * b.mantissa) (a.scale + b.scale)

/-- The mantissa with its sign, at `scale` places. -/
def signedAt (scale : Nat) (a : Decimal) : Int :=
  let n : Int := (a.mantissa * Nat.pow 10 (scale - a.scale) : Nat)
  if a.negative then -n else n

/-- The sum.  Adding a zero gives the other summand as it is. -/
def add? (a b : Decimal) : Option Decimal :=
  if a.mantissa = 0 then
    some b
  else if b.mantissa = 0 then
    some a
  else
    let scale := max a.scale b.scale
    let x := a.signedAt scale + b.signedAt scale
    fit? (x < 0) x.natAbs scale

/-! ### Quotient -/

/-- A quotient under development: the digits found so far at `scale` places, what remains of
the dividend, and whether something ever remained. -/
structure Development where
  scale : Int
  quotient : Nat
  remainder : Nat
  inexact : Bool

/-- The end of a development: the digits and their places. -/
structure Developed where
  scale : Nat
  quotient : Nat
  inexact : Bool

/-- The number of places that can still follow `scale` places. -/
def placesLeft (scale : Int) : Nat :=
  (Int.ofNat maxScale - scale).toNat

/-- The number of places, at most nine, that can be added after `scale` places without the
quotient passing the mantissa bound. -/
def roomFor (scale : Int) (quotient : Nat) : Nat :=
  ((List.range' 1 9).takeWhile fun p =>
    p ≤ placesLeft scale ∧ quotient * Nat.pow 10 p < mantissaBound).length

/-- The development rounded to its last place, when no further place fits. -/
def Development.finish (divisor : Nat) (x : Development) : Option Developed :=
  let q :=
    if 2 * x.remainder > divisor ∨ (2 * x.remainder = divisor ∧ x.quotient % 2 = 1) then
      x.quotient + 1
    else
      x.quotient
  if q = mantissaBound then
    if x.scale - 1 < 0 then none
    else some ⟨(x.scale - 1).toNat, dropDigit true q, x.inexact⟩
  else
    some ⟨x.scale.toNat, q, x.inexact⟩

/-- The quotient developed step by step.  Each step adds at least one place, so `fuel` above
the number of places in reach is never used up. -/
def develop (divisor : Nat) : Nat → Development → Option Developed
  | 0, _ => none
  | fuel + 1, x =>
    if x.remainder = 0 then
      if x.scale ≥ 0 then
        some ⟨x.scale.toNat, x.quotient, x.inexact⟩
      else
        extend fuel x (min 9 (-x.scale).toNat)
    else
      let x : Development := { x with inexact := true }
      let p := roomFor x.scale x.quotient
      if placesLeft x.scale ≠ 0 ∧ p < 9 ∧ x.scale + p < 0 then
        none
      else if p = 0 then
        x.finish divisor
      else
        extend fuel x p
where
  /-- Adds `p` places. -/
  extend (fuel : Nat) (x : Development) (p : Nat) : Option Developed :=
    let scale := x.scale + p
    if x.quotient * Nat.pow 10 p ≥ mantissaBound then
      none
    else
      let r := x.remainder * Nat.pow 10 p
      let q := x.quotient * Nat.pow 10 p + r / divisor
      if q ≥ mantissaBound then
        if scale - 1 < 0 then none
        else some ⟨(scale - 1).toNat, dropDigit (r % divisor ≠ 0) q, x.inexact⟩
      else
        develop divisor fuel ⟨scale, q, r % divisor, x.inexact⟩

/-- Drops `10 ^ p` from the digits while they are divisible by `2 ^ bits` and by it, and the
places allow it. -/
def dropZeros (bits p : Nat) : Nat → Nat × Nat → Nat × Nat
  | 0, x => x
  | fuel + 1, (q, scale) =>
    if q % Nat.pow 2 bits = 0 ∧ scale ≥ p ∧ q % Nat.pow 10 p = 0 then
      dropZeros bits p fuel (q / Nat.pow 10 p, scale - p)
    else
      (q, scale)

/-- The digits of an inexact quotient without some of their trailing zeros: groups of eight
while the low 32 bits are zero, then at most one group of four, of two and of one. -/
def trimZeros (q scale : Nat) : Nat × Nat :=
  dropZeros 1 1 1 (dropZeros 2 2 1 (dropZeros 4 4 1 (dropZeros 32 8 4 (q, scale))))

/-- The quotient by a divisor other than zero.  A zero dividend gives zero without places. -/
def div? (a b : Decimal) : Option Decimal :=
  if a.mantissa = 0 then
    some zero
  else if b.mantissa = 0 then
    none
  else do
    let start : Development :=
      ⟨(a.scale : Int) - b.scale, a.mantissa / b.mantissa, a.mantissa % b.mantissa, false⟩
    let x ← develop b.mantissa 64 start
    let (q, scale) := if x.inexact then trimZeros x.quotient x.scale else (x.quotient, x.scale)
    ofParts? (a.negative != b.negative && q != 0) q scale

/-! ### Whole numbers -/

/-- The least whole number that is not less, with the sign flag kept. -/
def ceil (d : Decimal) : Bool × Nat :=
  let q := d.mantissa / Nat.pow 10 d.scale
  let r := d.mantissa % Nat.pow 10 d.scale
  (d.negative, if r ≠ 0 ∧ !d.negative then q + 1 else q)

end QuoteFeed.Decimal
